import DebugMonitor.Chip.Variant
import DebugMonitor.Memory.Layout
import DebugMonitor.Uart

/-!
# Chip configurations

What the monitor has to know of the chip it runs on: how memory is laid out, and which register
blocks there are and where. It follows from the variant alone and is settled once, at start-up. A
chip that is not recognised is taken to have no register blocks.
-/

namespace DebugMonitor

/-- Two clock speeds, the divided one in force while a bit of `mask` is set in the register. -/
structure Clock where
  register : UInt32
  mask : UInt8
  baseMhz : UInt32
  dividedMhz : UInt32
  deriving DecidableEq, Repr

/-- The speed that is in force, given what the register holds. -/
def Clock.speed (clock : Clock) (select : UInt8) : UInt32 :=
  if select &&& clock.mask ≠ 0 then clock.dividedMhz else clock.baseMhz

/-- What is known about a chip. Blocks and registers that it does not have are left out. -/
structure Config where
  variant : Variant
  layout : Layout := .banked
  uartBase : Option UInt32 := none
  controlBase : Option UInt32 := none
  versionRegister : Option UInt32 := none
  clock : Option Clock := none
  deriving DecidableEq, Repr

namespace Config

def name (config : Config) : Text := config.variant.name

def ofVariant : Variant → Config
  | .asm1042 => narrow .asm1042
  | .asm1042A => narrow .asm1042A
  | .asm1142 => { narrow .asm1142 with layout := .banked }
  | .asm2142 =>
    { variant := .asm2142
      uartBase := some 0x15100
      controlBase := some 0x15040
      versionRegister := some 0x15030 }
  | .asm3242 =>
    { variant := .asm3242
      layout := { Layout.banked with gate := some ⟨0x8000, 0x10000, 0x87, 0x01⟩ }
      uartBase := some 0x5100
      controlBase := some 0x5040
      versionRegister := some 0x5030
      clock := some ⟨0x5032, 0x01, 250, 125⟩ }
  | .unknown => { variant := .unknown }
where
  /-- The first generation has its registers in the first page and unified addressing. -/
  narrow (variant : Variant) : Config :=
    { variant, layout := .unified, uartBase := some 0xf100, controlBase := some 0xf340 }

/-! ### Reading the chip -/

def setUpUart (config : Config) : Program Memory Unit :=
  match config.uartBase with
  | some base => Uart.setLine base
  | none => pure ()

/-- The version of the silicon, from chips that tell it. -/
def readVersion (config : Config) : Program Memory (Option UInt8) :=
  match config.versionRegister with
  | some register => some <$> Memory.read register
  | none => pure none

/-- The clock speed, from chips that tell it. -/
def readClock (config : Config) : Program Memory (Option UInt32) :=
  match config.clock with
  | some clock => do return some (clock.speed (← Memory.read clock.register))
  | none => pure none

/-- Identifies the chip and programs the line settings of its UART. -/
def detect : Program Bus Config := do
  let config := ofVariant (Variant.ofToken (← Variant.readToken))
  config.layout.lower config.setUpUart
  return config

end Config

end DebugMonitor
