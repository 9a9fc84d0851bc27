import DebugMonitor.Console.Tokens

/-!
# Words and the lines made of them

A word is a text that is not empty and has no separator in it. A line that is put together of words,
each set off from the one before by a separator, falls apart into just these words (`words_spaced`);
of its tokens there are at most three.

There is another way to cut a line: at every separator, which leaves a piece between any two of
them. The words are the pieces that are not empty (`words_eq_pieces`).
-/

namespace DebugMonitor.Console

structure IsWord (text : Text) : Prop where
  ne_nil : text ≠ []
  isTokenChar : ∀ c ∈ text, isTokenChar c = true

instance (text : Text) : Decidable (IsWord text) :=
  decidable_of_iff (text ≠ [] ∧ text.all isTokenChar = true)
    ⟨fun h => ⟨h.1, List.all_eq_true.mp h.2⟩,
      fun h => ⟨h.ne_nil, List.all_eq_true.mpr h.isTokenChar⟩⟩

/-! ### Texts that can be cut in two -/

section

variable {p : Char → Bool} {front front' back back' : Text}

/-- A text can be cut where its characters stop having a property. -/
theorem takeWhile_append_of_stop (hfront : ∀ c ∈ front, p c = true)
    (hback : ∀ c ∈ back.head?, p c = false) : (front ++ back).takeWhile p = front := by
  rw [List.takeWhile_append_of_pos hfront]
  cases back with
  | nil => simp
  | cons c back => simp [hback c rfl]

/-- And only there. -/
theorem eq_of_append_eq_append (hfront : ∀ c ∈ front, p c = true)
    (hback : ∀ c ∈ back.head?, p c = false) (hfront' : ∀ c ∈ front', p c = true)
    (hback' : ∀ c ∈ back'.head?, p c = false) (h : front ++ back = front' ++ back') :
    front = front' ∧ back = back' := by
  have heq : front = front' := by
    rw [← takeWhile_append_of_stop hfront hback, h, takeWhile_append_of_stop hfront' hback']
  subst heq
  exact ⟨rfl, List.append_cancel_left h⟩

end

/-! ### One word -/

theorem words_of_skip_nil {line : Text} (h : skipSeparators line = []) : words line = [] := by
  rw [words]
  split
  · rfl
  · next hcons =>
    rw [h] at hcons
    cases hcons

theorem words_nil : words [] = [] := words_of_skip_nil rfl

theorem words_of_skip {line rest : Text} {c : Char} (h : skipSeparators line = c :: rest) :
    words line = word (c :: rest) :: words (afterWord (c :: rest)) := by
  rw [words]
  split
  · next hnil =>
    rw [h] at hnil
    cases hnil
  · next found others hcons =>
    rw [h] at hcons
    cases hcons
    rfl

/-- A separator in front of a line changes nothing. -/
theorem words_separator {c : Char} (h : isSeparator c = true) (rest : Text) :
    words (c :: rest) = words rest := by
  have hskip : skipSeparators (c :: rest) = skipSeparators rest := List.dropWhile_cons_of_pos h
  cases hrest : skipSeparators rest with
  | nil => rw [words_of_skip_nil (hskip.trans hrest), words_of_skip_nil hrest]
  | cons first others => rw [words_of_skip (hskip.trans hrest), words_of_skip hrest]

/-- A word ends at a separator, or with the line. -/
theorem words_append {text rest : Text} (h : IsWord text)
    (hrest : ∀ c ∈ rest.head?, isSeparator c = true) :
    words (text ++ rest) = text :: words rest := by
  cases text with
  | nil => exact absurd rfl h.ne_nil
  | cons first others =>
    have hfirst : isTokenChar first = true := h.isTokenChar first List.mem_cons_self
    have hskip : skipSeparators (first :: others ++ rest) = first :: (others ++ rest) := by
      apply List.dropWhile_cons_of_neg
      simpa [isTokenChar] using hfirst
    -- Behind the word stands nothing that belongs to it.
    have hstop : rest.takeWhile isTokenChar = [] ∧ rest.dropWhile isTokenChar = rest := by
      cases rest with
      | nil => exact ⟨rfl, rfl⟩
      | cons c rest =>
        have hc : isTokenChar c = false := by simp [isTokenChar, hrest c rfl]
        simp [hc]
    have hword : word (first :: (others ++ rest)) = first :: others := by
      show (first :: others ++ rest).takeWhile isTokenChar = _
      rw [List.takeWhile_append_of_pos h.isTokenChar, hstop.1, List.append_nil]
    have hafter : afterWord (first :: (others ++ rest)) = rest := by
      show (first :: others ++ rest).dropWhile isTokenChar = _
      rw [List.dropWhile_append_of_pos h.isTokenChar, hstop.2]
    rw [words_of_skip hskip, hword, hafter]

/-! ### Lines -/

/-- A line of words with a blank in front of every one but the first. -/
def spaced (name : Text) (arguments : List Text) : Text :=
  name ++ arguments.flatMap fun argument => ' ' :: argument

/-- Words with single blanks between them are read back. -/
theorem words_spaced {name : Text} {arguments : List Text} (hname : IsWord name)
    (harguments : ∀ argument ∈ arguments, IsWord argument) :
    words (spaced name arguments) = name :: arguments := by
  induction arguments generalizing name with
  | nil =>
    have hline : spaced name [] = name ++ [] := rfl
    rw [hline, words_append hname (by simp), words_nil]
  | cons argument rest ih =>
    rw [List.forall_mem_cons] at harguments
    obtain ⟨hargument, hrest⟩ := harguments
    have hline : spaced name (argument :: rest) = name ++ ' ' :: spaced argument rest := rfl
    rw [hline, words_append hname (by simp [isSeparator]), words_separator rfl, ih hargument hrest]

/-- Few enough words are all tokens. -/
theorem tokens_spaced {name : Text} {arguments : List Text} (hname : IsWord name)
    (harguments : ∀ argument ∈ arguments, IsWord argument) (hcount : arguments.length < maxTokens) :
    tokens (spaced name arguments) = name :: arguments := by
  rw [tokens, words_spaced hname harguments, List.take_of_length_le]
  exact hcount

/-! ### Cutting at the separators -/

/-- What stands between separators, unless nothing does. -/
def pieces (line : Text) : List Text :=
  (line.splitOnP isSeparator).filter (· ≠ [])

theorem pieces_nil : pieces [] = [] := by
  rw [pieces, List.splitOnP_nil]
  rfl

/-- A separator stands between two pieces. -/
theorem pieces_append_separator {c : Char} (h : isSeparator c = true) (text rest : Text) :
    pieces (text ++ c :: rest) = pieces text ++ pieces rest := by
  rw [pieces, List.splitOnP_append_cons _ _ h, List.filter_append]
  rfl

theorem pieces_separator {c : Char} (h : isSeparator c = true) (rest : Text) :
    pieces (c :: rest) = pieces rest := by
  have hsplit := pieces_append_separator h [] rest
  rwa [pieces_nil] at hsplit

/-- Separators in front give no pieces. -/
theorem pieces_skipSeparators (line : Text) : pieces (skipSeparators line) = pieces line := by
  induction line with
  | nil => rfl
  | cons c rest ih =>
    cases hc : isSeparator c with
    | true =>
      rw [pieces_separator hc, ← ih, skipSeparators, List.dropWhile_cons_of_pos hc]
      rfl
    | false => rw [skipSeparators, List.dropWhile_cons_of_neg (by simp [hc])]

theorem pieces_of_isWord {text : Text} (h : IsWord text) : pieces text = [text] := by
  have hwhole : text.splitOnP isSeparator = [text] := by
    apply List.splitOnP_eq_singleton
    intro c hc
    simpa [isTokenChar] using h.isTokenChar c hc
  rw [pieces, hwhole, List.filter_cons_of_pos (by simpa using h.ne_nil), List.filter_nil]

/-- A word that ends at a separator is a piece. -/
theorem pieces_append {text rest : Text} (h : IsWord text)
    (hrest : ∀ c ∈ rest.head?, isSeparator c = true) :
    pieces (text ++ rest) = text :: pieces rest := by
  cases rest with
  | nil => rw [List.append_nil, pieces_of_isWord h, pieces_nil]
  | cons c rest =>
    have hc : isSeparator c = true := hrest c rfl
    rw [pieces_append_separator hc, pieces_of_isWord h, pieces_separator hc]
    rfl

/-- A text that does not start with a separator starts with a word. -/
theorem isWord_word {c : Char} (h : isTokenChar c = true) (rest : Text) :
    IsWord (word (c :: rest)) := by
  constructor
  · rw [word, List.takeWhile_cons_of_pos h]
    exact List.cons_ne_nil _ _
  · exact List.all_eq_true.mp List.all_takeWhile

theorem isSeparator_of_afterWord (text : Text) :
    ∀ c ∈ (afterWord text).head?, isSeparator c = true := by
  intro c hc
  have hstop := List.head?_dropWhile_not isTokenChar text
  rw [← afterWord, Option.mem_def.mp hc] at hstop
  simpa [isTokenChar] using hstop

/-- **The words of a line are the pieces between its separators.** -/
theorem words_eq_pieces (line : Text) : words line = pieces line := by
  fun_induction words line with
  | case1 line h => rw [← pieces_skipSeparators, h, pieces_nil]
  | case2 line c rest h _ ih =>
    have hc := isTokenChar_of_skipSeparators h
    have hsplit : word (c :: rest) ++ afterWord (c :: rest) = c :: rest :=
      List.takeWhile_append_dropWhile
    rw [← pieces_skipSeparators, h, ih, ← pieces_append (isWord_word hc rest)
      (isSeparator_of_afterWord (c :: rest)), hsplit]

end DebugMonitor.Console
