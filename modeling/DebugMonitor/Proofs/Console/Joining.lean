import DebugMonitor.Proofs.Console.Tokens
import Mathlib.Data.List.TakeWhile
import Mathlib.Logic.ExistsUnique

/-!
# Lines joined from words

Whoever types a line sets words next to each other, with blanks and tabs around and between them. A
`Line` is what he had in mind, and `Line.text` is what he typed. The text gives the line away: every
text is that of a line (`exists_line`), and of no other (`Line.text_inj`). So it is enough to know
what the tokens of a line are. They are its first three words (`words_text`), whatever the gaps are
made of.

A word may hold any characters but blanks and tabs, also those that look like blanks.
-/

namespace DebugMonitor.Console

/-- Blanks and tabs, perhaps none. -/
def IsGap (text : Text) : Prop := ∀ c ∈ text, c = ' ' ∨ c = '\t'

/-- A text with something in it, but no blank and no tab. -/
structure Unbroken (text : Text) : Prop where
  ne_nil : text ≠ []
  blank_not_mem : ' ' ∉ text
  tab_not_mem : '\t' ∉ text

/-- Words with the gaps behind them. Where another word follows, there is a gap. -/
inductive Spaced : List (Text × Text) → Prop where
  | nil : Spaced []
  | cons {word gap : Text} {rest : List (Text × Text)} (unbroken : Unbroken word)
      (isGap : IsGap gap) (apart : rest ≠ [] → gap ≠ []) (spaced : Spaced rest) :
      Spaced ((word, gap) :: rest)

/-- What is typed of words with the gaps behind them. -/
def joined (parts : List (Text × Text)) : Text := parts.flatMap fun part => part.1 ++ part.2

/-- A line taken apart: the gap in front, and the words with the gaps behind them. -/
@[ext]
structure Line where
  /-- The gap in front of the first word. -/
  margin : Text
  /-- The words, and the gaps behind them. -/
  parts : List (Text × Text)
  isGap : IsGap margin
  spaced : Spaced parts

namespace Line

def text (line : Line) : Text := line.margin ++ joined line.parts

def words (line : Line) : List Text := line.parts.map Prod.fst

end Line

/-! ### Gaps and words by their characters -/

theorem isSeparator_iff {c : Char} : isSeparator c = true ↔ c = ' ' ∨ c = '\t' := by
  simp [isSeparator]

theorem isGap_iff {text : Text} : IsGap text ↔ ∀ c ∈ text, isSeparator c = true := by
  simp only [IsGap, isSeparator_iff]

theorem unbroken_iff {text : Text} : Unbroken text ↔ IsWord text := by
  constructor
  · intro h
    refine ⟨h.ne_nil, fun c hc => ?_⟩
    have hseparator : isSeparator c ≠ true := by
      rw [Ne, isSeparator_iff]
      rintro (rfl | rfl)
      · exact h.blank_not_mem hc
      · exact h.tab_not_mem hc
    simpa [isTokenChar] using hseparator
  · intro h
    refine ⟨h.ne_nil, fun hblank => ?_, fun htab => ?_⟩
    · exact absurd (h.isTokenChar _ hblank) (by decide)
    · exact absurd (h.isTokenChar _ htab) (by decide)

/-- A text with a gap at its front has the words of what is behind it. -/
theorem words_gap {gap : Text} (h : IsGap gap) (rest : Text) :
    words (gap ++ rest) = words rest := by
  rw [isGap_iff] at h
  induction gap with
  | nil => rfl
  | cons c gap ih =>
    rw [List.forall_mem_cons] at h
    rw [List.cons_append, words_separator h.1, ih h.2]

namespace Spaced

variable {parts : List (Text × Text)}

/-- What is joined begins with a word. -/
theorem isTokenChar_head (h : Spaced parts) :
    ∀ c ∈ (joined parts).head?, isTokenChar c = true := by
  cases h with
  | nil => simp [joined]
  | @cons word gap rest hword =>
    obtain ⟨hne, hchars⟩ := unbroken_iff.mp hword
    obtain ⟨first, others, rfl⟩ := List.exists_cons_of_ne_nil hne
    rintro c ⟨⟩
    exact hchars _ List.mem_cons_self

/-- A line with words is not empty. -/
theorem joined_ne_nil (h : Spaced parts) (hne : parts ≠ []) : joined parts ≠ [] := by
  cases h with
  | nil => exact absurd rfl hne
  | @cons word gap rest hword =>
    intro hnil
    rw [joined, List.flatMap_cons, List.append_assoc, List.append_eq_nil_iff] at hnil
    exact hword.ne_nil hnil.1

/-- Behind a word comes its gap, unless nothing comes at all. -/
theorem isSeparator_head {gap : Text} (hgap : IsGap gap) (happart : parts ≠ [] → gap ≠ []) :
    ∀ c ∈ (gap ++ joined parts).head?, isSeparator c = true := by
  cases gap with
  | nil =>
    cases parts with
    | nil => simp [joined]
    | cons part rest => exact absurd rfl (happart (List.cons_ne_nil part rest))
  | cons first gap =>
    rintro c ⟨⟩
    exact isGap_iff.mp hgap _ List.mem_cons_self

/-- The words of a joined line are those it was joined from. -/
theorem words_joined (h : Spaced parts) : words (joined parts) = parts.map Prod.fst := by
  induction h with
  | nil => exact words_nil
  | @cons word gap rest hword hgap happart _ ih =>
    have hjoined : joined ((word, gap) :: rest) = word ++ (gap ++ joined rest) :=
      List.append_assoc ..
    rw [hjoined, words_append (unbroken_iff.mp hword) (isSeparator_head hgap happart),
      words_gap hgap, ih, List.map_cons]

end Spaced

/-- **The words of what was typed are the words that were meant.** -/
theorem words_text (line : Line) : words line.text = line.words := by
  rw [Line.text, words_gap line.isGap, line.spaced.words_joined, Line.words]

/-! ### One line for every text

A text is cut where the kind of its characters changes, and there is only one way to do that. -/

theorem Spaced.not_isSeparator_head {parts : List (Text × Text)} (h : Spaced parts) :
    ∀ c ∈ (joined parts).head?, isSeparator c = false := by
  intro c hc
  simpa [isTokenChar] using h.isTokenChar_head c hc

/-- No line is joined in two ways, the gaps included. -/
theorem Spaced.joined_inj {parts others : List (Text × Text)} (h : Spaced parts)
    (h' : Spaced others) (heq : joined parts = joined others) : parts = others := by
  induction h generalizing others with
  | nil =>
    cases others with
    | nil => rfl
    | cons part rest => exact absurd heq.symm (h'.joined_ne_nil (List.cons_ne_nil part rest))
  | @cons word gap rest hword hgap happart hrest ih =>
    cases h' with
    | nil => exact absurd heq ((Spaced.cons hword hgap happart hrest).joined_ne_nil (by simp))
    | @cons word' gap' rest' hword' hgap' happart' hrest' =>
      have hcut : word ++ (gap ++ joined rest) = word' ++ (gap' ++ joined rest') := by
        simpa [joined] using heq
      -- The word ends where the gap begins, and the gap where the next word does.
      obtain ⟨rfl, hbehind⟩ := eq_of_append_eq_append (unbroken_iff.mp hword).isTokenChar
        (fun c hc => by simp [isTokenChar, isSeparator_head hgap happart c hc])
        (unbroken_iff.mp hword').isTokenChar
        (fun c hc => by simp [isTokenChar, isSeparator_head hgap' happart' c hc]) hcut
      obtain ⟨rfl, hrests⟩ := eq_of_append_eq_append (isGap_iff.mp hgap) hrest.not_isSeparator_head
        (isGap_iff.mp hgap') hrest'.not_isSeparator_head hbehind
      rw [ih hrest' hrests]

/-- A line has one way to be taken apart. -/
theorem Line.text_inj {line other : Line} (h : line.text = other.text) : line = other := by
  obtain ⟨hmargin, hjoined⟩ := eq_of_append_eq_append (isGap_iff.mp line.isGap)
    line.spaced.not_isSeparator_head (isGap_iff.mp other.isGap) other.spaced.not_isSeparator_head h
  exact Line.ext hmargin (line.spaced.joined_inj other.spaced hjoined)

/-- Every text is some line. -/
theorem exists_line (text : Text) : ∃ line : Line, line.text = text := by
  fun_induction words text with
  | case1 text hskip =>
    have hgap : IsGap text := isGap_iff.mpr (List.dropWhile_eq_nil_iff.mp hskip)
    exact ⟨⟨text, [], hgap, .nil⟩, List.append_nil text⟩
  | case2 text c rest hskip _ ih =>
    obtain ⟨line, hline⟩ := ih
    have hword := isWord_word (isTokenChar_of_skipSeparators hskip) rest
    -- What follows the first word starts with a separator, so a word does not come next.
    have hbehind : line.parts ≠ [] → line.margin ≠ [] := by
      intro hparts hmargin
      obtain ⟨first, others, hjoined⟩ :=
        List.exists_cons_of_ne_nil (line.spaced.joined_ne_nil hparts)
      have hafter : afterWord (c :: rest) = first :: others := by
        rw [← hline, Line.text, hmargin, hjoined]
        rfl
      have hseparator := isSeparator_of_afterWord (c :: rest) first (by rw [hafter]; rfl)
      have hnone := line.spaced.not_isSeparator_head first (by rw [hjoined]; rfl)
      rw [hseparator] at hnone
      cases hnone
    let margin := text.takeWhile isSeparator
    refine ⟨⟨margin, (word (c :: rest), line.margin) :: line.parts, isGap_iff.mpr ?_,
      .cons (unbroken_iff.mpr hword) line.isGap hbehind line.spaced⟩, ?_⟩
    · exact List.all_eq_true.mp List.all_takeWhile
    · have hsplit : word (c :: rest) ++ afterWord (c :: rest) = skipSeparators text := by
        rw [hskip]
        exact List.takeWhile_append_dropWhile
      calc margin ++ joined ((word (c :: rest), line.margin) :: line.parts)
          = margin ++ (word (c :: rest) ++ line.text) := by simp [joined, Line.text]
        _ = margin ++ skipSeparators text := by rw [hline, hsplit]
        _ = text := List.takeWhile_append_dropWhile

/-- **Tokens undo joining.** Every text is that of one line, and of no other; its tokens are the
first three words of this line. -/
theorem tokens_text :
    (∀ text : Text, ∃! line : Line, line.text = text) ∧
    ∀ line : Line,
      tokens line.text = line.words.take 3 ∧
      (tokens line.text).length = min 3 line.words.length ∧
      (∀ i, (tokens line.text)[i]? = if i < min 3 line.words.length then line.words[i]? else none) ∧
      ((tokens line.text).isEmpty = true ↔ line.words = []) := by
  constructor
  · intro text
    -- A line is there, and its text leaves no other.
    obtain ⟨line, hline⟩ := exists_line text
    exact ⟨line, hline, fun other hother => Line.text_inj (hother.trans hline.symm)⟩
  · intro line
    have htokens : tokens line.text = line.words.take 3 := by
      rw [tokens, words_text]
      rfl
    refine ⟨htokens, ?_, fun i => ?_, ?_⟩
    · rw [htokens, List.length_take]
    · rw [htokens, List.getElem?_take]
      split
      next hlt =>
        split
        next => rfl
        next hge => exact List.getElem?_eq_none (by omega)
      next hge => rw [if_neg (by omega)]
    · rw [htokens]
      simp

/-- A line feed and a blank that does not break belong to the words that they stand in. -/
example : tokens "\t mwb\n20\u00a00c  ff\t7 " = (["mwb\n20\u00a00c", "ff", "7"] : List Text) := by
  decide +kernel

end DebugMonitor.Console
