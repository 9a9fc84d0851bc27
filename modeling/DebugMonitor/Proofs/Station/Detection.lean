import DebugMonitor.Proofs.Memory.PlainData
import DebugMonitor.Proofs.Memory.UartBlock
import DebugMonitor.Proofs.Station.PageRegister

/-!
# Detection on a chip whose code was loaded in parts

A code image may be loaded part by part, with parts that overlap or leave holes. Whatever the parts
are, a byte of code is the one that the last part reaching there has put there (`lastLoaded`). So
the eight bytes in which a token would be are known, and with them the variant that detection takes
the chip for, which then has its line settings programmed and nothing else done to it
(`detect_loaded`).
-/

namespace DebugMonitor

open Sim

/-! ### Code -/

namespace Sim

/-- The byte that a part of a code image, loaded at an offset, has at an address. -/
def loadedByte? (address : Nat) (part : UInt32 × Bytes) : Option UInt8 :=
  if part.1.toNat ≤ address then part.2[address - part.1.toNat]? else none

/-- The byte of the last part that reaches an address. -/
def lastLoaded? (parts : List (UInt32 × Bytes)) (address : Nat) : Option UInt8 :=
  parts.reverse.findSome? (loadedByte? address)

/-- Where nothing was loaded, code is zero. -/
def lastLoaded (parts : List (UInt32 × Bytes)) (offset : UInt32) : UInt8 :=
  (lastLoaded? parts offset.toNat).getD 0

theorem lastLoaded?_cons (part : UInt32 × Bytes) (rest : List (UInt32 × Bytes)) (address : Nat) :
    lastLoaded? (part :: rest) address =
      (lastLoaded? rest address).or (loadedByte? address part) := by
  rw [lastLoaded?, List.reverse_cons, List.findSome?_append, List.findSome?_singleton]
  rfl

/-- Bytes that are written side by side cover what was there. -/
theorem Cells.get_load (cells : Cells) (start address : Nat) (bytes : Bytes) :
    (cells.load start bytes).get address =
      if start ≤ address then (bytes[address - start]?).getD (cells.get address)
      else cells.get address := by
  induction bytes generalizing cells start with
  | nil => simp [load]
  | cons b rest ih =>
    rw [load, ih, get_set]
    rcases Nat.lt_trichotomy address start with hbefore | rfl | hbehind
    · rw [if_neg (by omega), if_neg (by omega), if_neg (by omega)]
    · rw [if_neg (by omega), if_pos rfl, if_pos (Nat.le_refl _), Nat.sub_self]
      rfl
    · have hindex : address - start = (address - (start + 1)) + 1 := by omega
      rw [if_pos (by omega), if_neg (by omega), if_pos (by omega), hindex, List.getElem?_cons_succ]

namespace Chip

/-- A chip is given its code in parts, one after another. -/
def loadAll (chip : Chip) (parts : List (UInt32 × Bytes)) : Chip :=
  parts.foldl (fun chip part => chip.loadCode part.1 part.2) chip

/-- A part that is loaded lies over what was there. -/
theorem get_code_loadCode (chip : Chip) (part : UInt32 × Bytes) (address : Nat) :
    (chip.loadCode part.1 part.2).code.get address =
      (loadedByte? address part).getD (chip.code.get address) := by
  rw [loadCode, Cells.get_load, loadedByte?]
  split <;> rfl

/-- The last part that reaches an address decides. -/
theorem get_code_loadAll (parts : List (UInt32 × Bytes)) (chip : Chip) (address : Nat) :
    (chip.loadAll parts).code.get address =
      (lastLoaded? parts address).getD (chip.code.get address) := by
  induction parts generalizing chip with
  | nil => rfl
  | cons part rest ih =>
    show ((chip.loadCode part.1 part.2).loadAll rest).code.get address = _
    rw [ih, get_code_loadCode, lastLoaded?_cons, Option.getD_or]

/-- On a chip that was blank before, code is what was loaded last. -/
theorem get_code_blank (parts : List (UInt32 × Bytes)) (offset : UInt32) :
    (loadAll {} parts).code.get offset.toNat = lastLoaded parts offset := by
  rw [get_code_loadAll, lastLoaded]
  exact congrArg _ (Cells.get_empty _)

end Chip

end Sim

/-! ### Tokens -/

namespace Variant

theorem mem_known {variant : Variant} (h : variant ≠ .unknown) : variant ∈ known := by
  cases variant with
  | unknown => exact absurd rfl h
  | _ => decide

/-- No two variants share a token. -/
theorem eq_of_token? {variant other : Variant} {token : Bytes} (h : variant.token? = some token)
    (hother : other.token? = some token) : variant = other := by
  have hdistinct : ∀ variant ∈ known, ∀ other ∈ known, variant.token? = other.token? →
      variant = other := by
    decide +kernel
  have hknown {variant : Variant} (h : variant.token? = some token) : variant ∈ known := by
    refine mem_known ?_
    rintro rfl
    cases h
  exact hdistinct _ (hknown h) _ (hknown hother) (h.trans hother.symm)

/-- A chip is known by its token. -/
theorem ofToken_of_token? {variant : Variant} {token : Bytes} (hsize : token.length = tokenSize)
    (h : variant.token? = some token) : ofToken token = variant := by
  have hknown : variant ∈ known := by
    refine mem_known ?_
    rintro rfl
    cases h
  have htake : token.take tokenSize = token := List.take_of_length_le (Nat.le_of_eq hsize)
  rw [ofToken, htake]
  cases hfind : known.find? (·.token? == some token) with
  | none =>
    have hnone := List.find?_eq_none.mp hfind variant hknown
    rw [h] at hnone
    exact absurd BEq.rfl hnone
  -- No two known chips share a token, so the one that was found is the one asked for.
  | some found =>
    have hfound := List.find?_some hfind
    exact eq_of_token? (beq_iff_eq.mp hfound) h

/-- A chip that is known has its token. -/
theorem token?_of_ofToken {token : Bytes} (hsize : token.length = tokenSize)
    (h : ofToken token ≠ .unknown) : (ofToken token).token? = some token := by
  have htake : token.take tokenSize = token := List.take_of_length_le (Nat.le_of_eq hsize)
  rw [ofToken, htake] at h ⊢
  cases hfind : known.find? (·.token? == some token) with
  | none =>
    rw [hfind] at h
    exact absurd rfl h
  | some found =>
    have hfound := List.find?_some hfind
    exact beq_iff_eq.mp hfound

/-- A known variant is found by its own token only. -/
theorem ofToken_eq_iff {variant : Variant} {token : Bytes} (hsize : token.length = tokenSize)
    (hknown : variant ≠ .unknown) : ofToken token = variant ↔ variant.token? = some token := by
  refine ⟨fun h => ?_, ofToken_of_token? hsize⟩
  rw [← h] at hknown ⊢
  exact token?_of_ofToken hsize hknown

/-- A chip is unknown if no variant has its token. -/
theorem ofToken_eq_unknown_iff {token : Bytes} (hsize : token.length = tokenSize) :
    ofToken token = .unknown ↔ ∀ variant : Variant, variant.token? ≠ some token := by
  constructor
  · intro hunknown variant h
    obtain rfl := (ofToken_of_token? hsize h).symm.trans hunknown
    cases h
  · intro hnone
    by_cases h : ofToken token = .unknown
    · exact h
    · exact absurd (token?_of_ofToken hsize h) (hnone _)

theorem readCode_within (offset : UInt32) (count : Nat) :
    (readCode offset count).Within fun request => ∃ offset, request = Bus.Request.code offset := by
  induction count generalizing offset with
  | zero => exact .pure _
  | succ count ih =>
    rw [readCode]
    exact (Program.Within.ask ⟨offset, rfl⟩).bind fun b => (ih _).bind fun rest => .pure _

end Variant

/-! ### Line settings -/

namespace Config

/-- Chips that are known have a place for a UART. -/
theorem exists_base {variant : Variant} (hknown : variant ≠ .unknown) :
    ∃ base, (Config.ofVariant variant).uartBase = some base ∧
      (Config.ofVariant variant).layout.Shows base := by
  cases variant with
  | unknown => exact absurd rfl hknown
  | _ => exact ⟨_, rfl, by decide, by decide⟩

/-- The data of every chip lies within 24 bits. -/
theorem codeStart_le (variant : Variant) :
    (Config.ofVariant variant).layout.codeStart ≤ 0x1000000 := by
  cases variant <;> decide

end Config

namespace Sim.Chip

variable {chip : Chip}

/-- No lock is in the way of the UART's registers. They belong to a UART that is attached where the
configuration has one, or are data cells; and they can be seen. -/
structure Ready (config : Config) (chip : Chip) : Prop where
  locked_none : chip.locked = none
  base_eq : ∀ queues, chip.uart = some queues →
    ∀ base, config.uartBase = some base → queues.base = base
  page_eq_zero : config.layout.paging = .unified → chip.page = 0

/-- The chip is as it was, but for the byte of the line settings, which is in the UART or, without
one, in a data cell. -/
structure LineSet (base : UInt32) (before after : Chip) : Prop where
  code_eq : after.code = before.code
  registers_eq : after.registers = before.registers
  page_eq : after.page = before.page
  locked_eq : after.locked = before.locked
  uart_eq : after.uart = before.uart.map fun queues => { queues with lineControl := 3 }
  peek_eq : ∀ address, after.peek address =
    if before.uart = none ∧ address = base + 3 then 3 else before.peek address

section

variable {layout : Layout} {base : UInt32}

/-- The settings are in the UART that is attached. -/
theorem handle_setLine_attached {queues : UartQueues} (hfits : layout.Fits chip)
    (hshows : layout.Shows queues.base) (huart : chip.uart = some queues) :
    ∃ after, (Uart.setLine queues.base).handle (memory layout) chip = .ok () after ∧
      LineSet queues.base chip after ∧
      ∃ last, (Memory.read (queues.base + 3)).handle (memory layout) after = .ok 3 last := by
  have hregister : Uart.lineControl ≤ Uart.lastRegister := by decide
  obtain ⟨switches, hwrite⟩ := handle_write_register hfits hshows huart hregister Uart.line8N1
  let set : UartQueues := { queues with lineControl := 3 }
  have hsame : layout.Shows set.base := hshows
  obtain ⟨later, hread⟩ := handle_read_register (fits_rewired hfits set switches) hsame
    (uart_rewired chip set switches) hregister
  have hset : LineSet queues.base chip (chip.rewired set switches) := by
    refine ⟨rfl, rfl, rfl, rfl, ?_, fun address => ?_⟩
    · rw [huart]
      rfl
    · rw [if_neg (fun h => by rw [huart] at h; cases h.1)]
      rfl
  exact ⟨_, hwrite, hset, _, hread⟩

/-- Where no UART is attached, the settings are in the data cell of the register. -/
theorem handle_setLine_bare (hclear : Clear layout chip) (hshows : layout.Shows base) :
    ∃ after, (Uart.setLine base).handle (memory layout) chip = .ok () after ∧
      LineSet base chip after ∧
      ∃ last, (Memory.read (base + 3)).handle (memory layout) after = .ok 3 last := by
  have hregister : Uart.lineControl ≤ Uart.lastRegister := by decide
  have hplain := hshows.plain hregister
  obtain ⟨switches, hwrite⟩ := handle_write_plain hclear hplain Uart.line8N1
  obtain ⟨later, hread⟩ :=
    handle_read_plain ((hclear.poke (base + 3) 3).counting switches) hplain
  let after := (chip.poke (base + 3) 3).counting switches
  -- Without a block the line control is a cell like any other, and keeps what was written.
  have hpeek (address : UInt32) :
      after.peek address = if base + 3 = address then 3 else chip.peek address :=
    chip.peek_poke (base + 3) address 3
  have hcell : after.peek (base + Uart.lineControl) = 3 := (hpeek _).trans (if_pos rfl)
  have hset : LineSet base chip after := by
    refine ⟨rfl, rfl, rfl, rfl, ?_, fun address => ?_⟩
    · rw [hclear.uart_none]
      exact hclear.uart_none
    · rw [hpeek]
      simp only [hclear.uart_none, true_and, eq_comm]
  exact ⟨after, hwrite, hset, _, hcell ▸ hread⟩

/-- Programming the line settings does no more than that, and they can be read back. -/
theorem handle_setLine (hfits : layout.Fits chip) (hshows : layout.Shows base)
    (hlocked : chip.locked = none)
    (hbase : ∀ queues, chip.uart = some queues → queues.base = base) :
    ∃ after, (Uart.setLine base).handle (memory layout) chip = .ok () after ∧
      LineSet base chip after ∧
      ∃ last, (Memory.read (base + 3)).handle (memory layout) after = .ok 3 last := by
  cases huart : chip.uart with
  | some queues =>
    obtain rfl := hbase queues huart
    exact handle_setLine_attached hfits hshows huart
  | none => exact handle_setLine_bare ⟨hfits, huart, hlocked⟩ hshows

end

/-! ### Detection -/

/-- Code that was loaded on a blank chip, with the token that it has in it, decides the variant. -/
theorem variant_of_code {parts : List (UInt32 × Bytes)}
    (hcode : ∀ address, chip.code.get address = (loadAll {} parts).code.get address) :
    chip.variant = .ofToken
      ((List.range 8).map fun i => lastLoaded parts (0x87 + i.toUInt32)) := by
  have hbyte : (fun i : Nat => chip.code.get (Variant.tokenOffset + i.toUInt32).toNat) =
      fun i => lastLoaded parts (0x87 + i.toUInt32) := by
    funext i
    rw [hcode, get_code_blank]
    rfl
  rw [variant, hbyte]
  rfl

/-- A chip that is not known is left alone, and only its token is read. -/
theorem detect_unknown (hunknown : chip.variant = .unknown) :
    Config.detect.handle bus chip = .ok chip.config chip ∧
      ∀ request ∈ Config.detect.trace bus chip, ∃ offset, request = .code offset := by
  have hconfig : chip.config = .ofVariant .unknown := congrArg Config.ofVariant hunknown
  constructor
  · rw [handle_detect, hconfig]
    rfl
  · have htoken := chip.handle_readCode Variant.tokenOffset Variant.tokenSize
    have hrest : ((chip.config.layout.lower chip.config.setUpUart >>= fun _ =>
        pure chip.config).trace bus chip) = [] := by
      rw [hconfig]
      rfl
    have htrace : Config.detect.trace bus chip = Variant.readToken.trace bus chip ++ [] := by
      rw [← hrest]
      exact Program.trace_bind_ok htoken
    rw [htrace, List.append_nil]
    exact Program.forall_mem_trace (Variant.readCode_within _ _) chip

/-- A known chip has its UART programmed, as a read of the line settings shows. -/
theorem detect_known (hknown : chip.variant ≠ .unknown) (hready : Ready chip.config chip) :
    ∃ base after, chip.config.uartBase = some base ∧
      Config.detect.handle bus chip = .ok chip.config after ∧ LineSet base chip after ∧
      ∃ last, (Memory.read (base + 3)).handle (memory chip.config.layout) after = .ok 3 last := by
  obtain ⟨base, hbase, hshows⟩ :
      ∃ base, chip.config.uartBase = some base ∧ chip.config.layout.Shows base :=
    Config.exists_base hknown
  have hfits : chip.config.layout.Fits chip :=
    ⟨Config.codeStart_le _, hready.page_eq_zero⟩
  obtain ⟨after, hset, hline, hread⟩ := handle_setLine hfits hshows hready.locked_none
    fun queues huart => hready.base_eq queues huart base hbase
  refine ⟨base, after, hbase, ?_, hline, hread⟩
  have hsetUp : chip.config.setUpUart = Uart.setLine base := by
    rw [Config.setUpUart, hbase]
  rw [handle_detect, hsetUp, run_bind_ok hset]
  rfl

/-- **Detection goes by the code that was loaded last,** and does nothing but program the line
settings of a chip that it knows. -/
theorem detect_loaded (parts : List (UInt32 × Bytes)) (chip : Chip)
    (hcode : ∀ address, chip.code.get address = (loadAll {} parts).code.get address) :
    (∀ offset, (Bus.code offset).handle bus chip = .ok (lastLoaded parts offset) chip) ∧
    ∃ variant : Variant,
      let token := (List.range 8).map fun i => lastLoaded parts (0x87 + i.toUInt32)
      let config := Config.ofVariant variant
      (∀ known, known ≠ .unknown → (variant = known ↔ known.token? = some token)) ∧
      (variant = .unknown ↔ ∀ known : Variant, known.token? ≠ some token) ∧
      (Ready config chip → ∃ after, Config.detect.handle bus chip = .ok config after ∧
        (variant = .unknown →
          after = chip ∧ ∀ page, .setPage page ∉ Config.detect.trace bus chip) ∧
        (variant ≠ .unknown → ∃ base, config.uartBase = some base ∧ LineSet base chip after ∧
          ∃ last, (Memory.read (base + 3)).handle (memory config.layout) after = .ok 3 last)) := by
  refine ⟨fun offset => ?_, chip.variant, ?_⟩
  · rw [← get_code_blank, ← hcode]
    rfl
  intro token config
  have hsize : token.length = Variant.tokenSize := List.length_map ..
  -- The variant depends on the code alone, and the code on what was loaded last.
  have hvariant : chip.variant = .ofToken token := variant_of_code hcode
  refine ⟨fun known hknown => ?_, ?_, fun hready => ?_⟩
  · rw [hvariant, Variant.ofToken_eq_iff hsize hknown]
  · rw [hvariant, Variant.ofToken_eq_unknown_iff hsize]
  · by_cases hunknown : chip.variant = .unknown
    · obtain ⟨hrun, htrace⟩ := detect_unknown hunknown
      refine ⟨chip, hrun, fun _ => ⟨rfl, fun page hpage => ?_⟩, absurd hunknown⟩
      obtain ⟨offset, hoffset⟩ := htrace _ hpage
      cases hoffset
    · obtain ⟨base, after, hbase, hrun, hset, hread⟩ := detect_known hunknown hready
      exact ⟨after, hrun, fun h => absurd h hunknown, fun _ => ⟨base, hbase, hset, hread⟩⟩

/-- A token of which one character was loaded over is that of another chip. -/
theorem detect_loaded_over :
    let parts := [(0x80, List.replicate 20 0xff), (0x87, Text.utf8 "2114A_FW"), (0x88, [0x32])]
    let chip := { loadAll {} parts with page := 5, uart := some { base := 0x15100 } }
    ∃ after, Config.detect.handle bus chip = .ok (.ofVariant .asm2142) after ∧
      LineSet 0x15100 chip after := by
  intro parts chip
  obtain ⟨-, variant, hknown, -, hstart⟩ := detect_loaded parts chip fun _ => rfl
  have htoken : Variant.asm2142.token? =
      some ((List.range 8).map fun i => lastLoaded parts (0x87 + i.toUInt32)) := by
    decide +kernel
  obtain rfl := (hknown .asm2142 (by decide)).mpr htoken
  have hready : Ready (.ofVariant .asm2142) chip := by
    refine ⟨rfl, ?_, nofun⟩
    rintro queues ⟨⟩ base hbase
    exact Option.some.inj hbase
  obtain ⟨after, hrun, -, hset⟩ := hstart hready
  obtain ⟨base, hbase, hline, -⟩ := hset (by decide)
  obtain rfl := Option.some.inj hbase
  exact ⟨after, hrun, hline⟩

end Sim.Chip

end DebugMonitor
