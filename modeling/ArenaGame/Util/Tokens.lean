import ArenaGame.Util.TextStream

/-!
# The tokens of a text

`tokens text` are the longest pieces of the text without white space.  An extraction of a word takes
the next token (`Between.word`); an extraction of a number does so if the token is a numeral
(`Between.number`), and may otherwise stop within the token.
-/

namespace TextStream

def tokens (text : List UInt8) : List (List UInt8) := (text.splitOnP isSpace).filter (· ≠ [])

/-- The number that a token spells as a whole. -/
def numeral (token : List UInt8) : Option UInt32 :=
  let signed := sign token
  let value := Decimal.ofBytes signed.2
  if signed.2 ≠ [] ∧ signed.2.all Decimal.isDigit ∧ value < UInt32.size then
    some (if signed.1 then -UInt32.ofNat value else UInt32.ofNat value)
  else none

@[simp] theorem tokens_nil : tokens [] = [] := rfl

theorem tokens_cons_of_space {b : UInt8} (h : isSpace b = true) (text : List UInt8) :
    tokens (b :: text) = tokens text := by
  simp [tokens, List.splitOnP_cons_eq_if_modifyHead, h]

theorem tokens_dropWhile (text : List UInt8) : tokens (text.dropWhile isSpace) = tokens text := by
  induction text with
  | nil => rfl
  | cons b text ih =>
    by_cases hb : isSpace b = true
    · rw [List.dropWhile_cons_of_pos hb, tokens_cons_of_space hb, ih]
    · rw [List.dropWhile_cons_of_neg hb]

/-- A token in front of white space or at the end of the text. -/
theorem tokens_append {w rest : List UInt8} (hne : w ≠ []) (hw : ∀ b ∈ w, isSpace b = false)
    (hrest : ∀ b ∈ rest.head?, isSpace b = true) : tokens (w ++ rest) = w :: tokens rest := by
  cases rest with
  | nil =>
    rw [List.append_nil, tokens, List.splitOnP_eq_singleton hw]
    simp [hne]
  | cons c rest =>
    have hc : isSpace c = true := hrest c rfl
    rw [tokens_cons_of_space hc, tokens, List.splitOnP_append_cons_of_forall_mem hw c hc,
      List.filter_cons_of_pos (by simpa using hne), tokens]

/-- Behind white space a text ends or has a first token. -/
theorem dropWhile_cases (text : List UInt8) :
    (text.dropWhile isSpace = [] ∧ tokens text = []) ∨
      ∃ w rest, text.dropWhile isSpace = w ++ rest ∧ w ≠ [] ∧ (∀ b ∈ w, isSpace b = false) ∧
        (∀ b ∈ rest.head?, isSpace b = true) ∧ tokens text = w :: tokens rest := by
  rw [← tokens_dropWhile text]
  cases hdrop : text.dropWhile isSpace with
  | nil => exact Or.inl ⟨rfl, rfl⟩
  | cons b behind =>
    right
    have hb : isSpace b = false := by
      have hhead := List.head_dropWhile_not isSpace (l := text) (by simp [hdrop])
      simpa [hdrop] using hhead
    have hsplit : (b :: behind).takeWhile (!isSpace ·) ++ (b :: behind).dropWhile (!isSpace ·) =
        b :: behind := List.takeWhile_append_dropWhile
    have hne : (b :: behind).takeWhile (!isSpace ·) ≠ [] := by simp [hb]
    have hw : ∀ c ∈ (b :: behind).takeWhile (!isSpace ·), isSpace c = false := by
      intro c hc
      simpa using List.mem_takeWhile_imp hc
    have hrest : ∀ c ∈ ((b :: behind).dropWhile (!isSpace ·)).head?, isSpace c = true := by
      intro c hc
      have hhead := List.head?_dropWhile_not (!isSpace ·) (b :: behind)
      rw [Option.mem_def.mp hc] at hhead
      simpa using hhead
    refine ⟨_, _, hsplit.symm, hne, hw, hrest, ?_⟩
    rw [← tokens_append hne hw hrest, hsplit]

theorem dropWhile_of_tokens_cons {text w : List UInt8} {ts : List (List UInt8)}
    (h : tokens text = w :: ts) :
    ∃ rest, text.dropWhile isSpace = w ++ rest ∧ w ≠ [] ∧ (∀ b ∈ w, isSpace b = false) ∧
      (∀ b ∈ rest.head?, isSpace b = true) ∧ tokens rest = ts := by
  rcases dropWhile_cases text with ⟨-, hnil⟩ | ⟨w', rest, hdrop, hne, hw, hrest, htokens⟩
  · rw [hnil] at h
    cases h
  · obtain ⟨rfl, rfl⟩ := List.cons.inj (htokens.symm.trans h)
    exact ⟨rest, hdrop, hne, hw, hrest, rfl⟩

/-! ### Extraction -/

/-- No extraction has failed, and the end of the file is only marked there. -/
structure Between (s : TextStream) : Prop where
  failbit : s.failbit = false
  eofbit : s.eofbit = true → s.rest = []

theorem between_start (text : List UInt8) : Between { rest := text } :=
  ⟨rfl, fun h => by cases h⟩

theorem between_isEmpty (rest : List UInt8) : Between { rest := rest, eofbit := rest.isEmpty } :=
  ⟨rfl, List.isEmpty_iff.mp⟩

variable {s : TextStream}

/-- Without tokens an extraction fails. -/
theorem word_of_tokens_nil (h : tokens s.rest = []) : s.word.1 = none := by
  have hdrop : s.rest.dropWhile isSpace = [] := by
    rcases dropWhile_cases s.rest with ⟨hdrop, -⟩ | ⟨w, rest, -, -, -, -, htokens⟩
    · exact hdrop
    · rw [htokens] at h
      cases h
  have hfail : s.skipws.failbit = true := by
    unfold skipws
    split_ifs
    · rfl
    · rw [hdrop]
  simp [word, hfail]

theorem Between.skipws (hs : Between s) {rest : List UInt8} (hne : rest ≠ [])
    (h : s.rest.dropWhile isSpace = rest) : s.skipws = { rest := rest } := by
  refine skipws_of_good ⟨?_, hs.failbit⟩ h hne
  by_contra heof
  have hnil := hs.eofbit (by simpa using heof)
  rw [hnil] at h
  exact hne h.symm

/-- A word is the next token. -/
theorem Between.word (hs : Between s) {w : List UInt8} {ts : List (List UInt8)}
    (h : tokens s.rest = w :: ts) :
    ∃ rest, s.word = (some w, { rest := rest, eofbit := rest.isEmpty }) ∧ tokens rest = ts := by
  obtain ⟨rest, hdrop, hne, hw, hrest, htokens⟩ := dropWhile_of_tokens_cons h
  have htake : (w ++ rest).takeWhile (!isSpace ·) = w ∧
      (w ++ rest).dropWhile (!isSpace ·) = rest := by
    cases rest with
    | nil =>
      rw [List.append_nil, List.takeWhile_eq_self_iff.mpr (by simpa using hw),
        List.dropWhile_eq_nil_iff.mpr (by simpa using hw)]
      exact ⟨rfl, rfl⟩
    | cons c rest =>
      exact takeWhile_append_of_all (by simpa using hw) (by simpa using hrest c rfl) rest
  refine ⟨rest, ?_, htokens⟩
  rw [TextStream.word, hs.skipws (by simp [hne]) hdrop]
  simp [htake.1, htake.2]

theorem sign_append {w : List UInt8} (hne : w ≠ []) (rest : List UInt8) :
    sign (w ++ rest) = ((sign w).1, (sign w).2 ++ rest) := by
  obtain ⟨b, w, rfl⟩ := List.exists_cons_of_ne_nil hne
  rw [List.cons_append]
  unfold sign
  split <;> simp_all

/-- A number is the next token if that is a numeral. -/
theorem Between.number (hs : Between s) {w : List UInt8} {ts : List (List UInt8)}
    (h : tokens s.rest = w :: ts) {v : UInt32} (hv : numeral w = some v) :
    ∃ rest, s.number = (some v, { rest := rest, eofbit := rest.isEmpty }) ∧ tokens rest = ts := by
  obtain ⟨rest, hdrop, hne, hw, hrest, htokens⟩ := dropWhile_of_tokens_cons h
  unfold numeral at hv
  simp only at hv
  split_ifs at hv with hspells hneg
  all_goals
    obtain ⟨hdigits, hall, hsize⟩ := hspells
    rw [List.all_eq_true] at hall
    have htake : ((sign w).2 ++ rest).takeWhile Decimal.isDigit = (sign w).2 ∧
        ((sign w).2 ++ rest).dropWhile Decimal.isDigit = rest := by
      cases rest with
      | nil =>
        rw [List.append_nil, List.takeWhile_eq_self_iff.mpr hall,
          List.dropWhile_eq_nil_iff.mpr hall]
        exact ⟨rfl, rfl⟩
      | cons c rest =>
        refine takeWhile_append_of_all hall ?_ rest
        cases hc : Decimal.isDigit c with
        | false => rfl
        | true =>
          have hspace := hrest c rfl
          rw [isSpace_of_isDigit hc] at hspace
          cases hspace
    refine ⟨rest, ?_, htokens⟩
    rw [TextStream.number, hs.skipws (by simp [hne]) hdrop, ← Option.some.inj hv]
    simp [sign_append hne, htake.1, htake.2, hdigits, Nat.not_le.mpr hsize, hneg]

end TextStream
