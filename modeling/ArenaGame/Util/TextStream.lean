import ArenaGame.Util.Decimal
import Mathlib.Data.List.TakeWhile

/-!
# Formatted extraction from a text stream

The part of `std::istream` that `stream >> word` and `stream >> number` use: the state flags, the
skipping of white space in front of a token, words that end at white space, and unsigned 32-bit
decimal numbers.

A stream of words and numbers, each followed by one white space character, is read back token by
token (`word_append`, `number_append`).
-/

structure TextStream where
  rest : List UInt8
  eofbit : Bool := false
  failbit : Bool := false

namespace TextStream

/-- White space in the classic locale. -/
def isSpace (b : UInt8) : Bool := b == 32 || (9 ≤ b && b ≤ 13)

/-- The sentry of an extraction: a stream that is not good fails; white space is skipped, and a
stream that ends there fails. -/
def skipws (s : TextStream) : TextStream :=
  if s.eofbit || s.failbit then { s with failbit := true }
  else
    match s.rest.dropWhile isSpace with
    | [] => { rest := [], eofbit := true, failbit := true }
    | rest => { s with rest := rest }

/-- `stream >> word`. -/
def word (s : TextStream) : Option (List UInt8) × TextStream :=
  let s := s.skipws
  if s.failbit then (none, s)
  else
    let rest := s.rest.dropWhile (!isSpace ·)
    (some (s.rest.takeWhile (!isSpace ·)), { s with rest := rest, eofbit := rest.isEmpty })

/-- The optional sign in front of a number. -/
def sign : List UInt8 → Bool × List UInt8
  | 43 :: rest => (false, rest)
  | 45 :: rest => (true, rest)
  | rest => (false, rest)

/-- `stream >> number` for an unsigned 32-bit number. -/
def number (s : TextStream) : Option UInt32 × TextStream :=
  let s := s.skipws
  if s.failbit then (none, s)
  else
    let signed := sign s.rest
    let digits := signed.2.takeWhile Decimal.isDigit
    let rest := signed.2.dropWhile Decimal.isDigit
    let value := Decimal.ofBytes digits
    let s := { s with rest := rest, eofbit := rest.isEmpty }
    if digits.isEmpty || UInt32.size ≤ value then (none, { s with failbit := true })
    else (some (if signed.1 then -UInt32.ofNat value else UInt32.ofNat value), s)

theorem skipws_of_good {s : TextStream} (hs : s.eofbit = false ∧ s.failbit = false)
    {rest : List UInt8} (h : s.rest.dropWhile isSpace = rest) (hne : rest ≠ []) :
    s.skipws = { rest := rest } := by
  obtain ⟨text, eof, fail⟩ := s
  obtain ⟨rfl, rfl⟩ : eof = false ∧ fail = false := hs
  simp only [skipws, Bool.or_self, Bool.false_eq_true, if_false] at h ⊢
  rw [h]
  cases rest with
  | nil => exact absurd rfl hne
  | cons b rest => rfl

/-! ### Words and numbers read back -/

theorem takeWhile_append_of_all {p : UInt8 → Bool} {w : List UInt8} (hw : ∀ b ∈ w, p b = true)
    {c : UInt8} (hc : p c = false) (rest : List UInt8) :
    (w ++ c :: rest).takeWhile p = w ∧ (w ++ c :: rest).dropWhile p = c :: rest := by
  constructor
  · rw [List.takeWhile_append_of_pos hw]
    simp [hc]
  · rw [List.dropWhile_append_of_pos hw]
    simp [hc]

/-- A word in front of a white space character, behind white space. -/
theorem word_append {pre w : List UInt8} (hpre : ∀ b ∈ pre, isSpace b = true) (hne : w ≠ [])
    (hw : ∀ b ∈ w, isSpace b = false) {c : UInt8} (hc : isSpace c = true) (rest : List UInt8) :
    word { rest := pre ++ (w ++ c :: rest) } = (some w, { rest := c :: rest }) := by
  have hskip : (pre ++ (w ++ c :: rest)).dropWhile isSpace = w ++ c :: rest := by
    rw [List.dropWhile_append_of_pos hpre]
    cases w with
    | nil => exact absurd rfl hne
    | cons b w => simp [hw b List.mem_cons_self]
  rw [word, skipws_of_good ⟨rfl, rfl⟩ hskip (by simp)]
  obtain ⟨htake, hdrop⟩ := takeWhile_append_of_all (p := (!isSpace ·)) (w := w)
    (by simpa using hw) (c := c) (by simpa using hc) rest
  simp [htake, hdrop]

theorem isSpace_of_isDigit {b : UInt8} (h : Decimal.isDigit b = true) : isSpace b = false := by
  simp only [Decimal.isDigit, Bool.and_eq_true, decide_eq_true_eq, UInt8.le_iff_toNat_le] at h
  have h48 : 48 ≤ b.toNat := h.1
  simp only [isSpace, Bool.or_eq_false_iff, beq_eq_false_iff_ne, ne_eq, Bool.and_eq_false_iff,
    decide_eq_false_iff_not, UInt8.le_iff_toNat_le]
  refine ⟨?_, Or.inr ?_⟩
  · rintro rfl
    exact absurd h48 (by decide)
  · show ¬ b.toNat ≤ 13
    omega

theorem sign_of_digit {b : UInt8} (h : Decimal.isDigit b = true) (rest : List UInt8) :
    sign (b :: rest) = (false, b :: rest) := by
  unfold sign
  split
  · rename_i heq
    rw [(List.cons.inj heq).1] at h
    exact absurd h (by decide)
  · rename_i heq
    rw [(List.cons.inj heq).1] at h
    exact absurd h (by decide)
  · rfl

/-- A number in front of a white space character, behind white space. -/
theorem number_append {pre : List UInt8} (hpre : ∀ b ∈ pre, isSpace b = true) (v : UInt32)
    {c : UInt8} (hc : isSpace c = true) (rest : List UInt8) :
    number { rest := pre ++ (Decimal.toBytes v.toNat ++ c :: rest) } =
      (some v, { rest := c :: rest }) := by
  have hdigits := Decimal.isDigit_of_mem_toBytes (n := v.toNat)
  have hvalue := Decimal.ofBytes_toBytes v.toNat
  have hne := Decimal.toBytes_ne_nil v.toNat
  generalize Decimal.toBytes v.toNat = w at hdigits hvalue hne ⊢
  have hskip : (pre ++ (w ++ c :: rest)).dropWhile isSpace = w ++ c :: rest := by
    rw [List.dropWhile_append_of_pos hpre]
    cases w with
    | nil => exact absurd rfl hne
    | cons b w => simp [isSpace_of_isDigit (hdigits b List.mem_cons_self)]
  have hsign : sign (w ++ c :: rest) = (false, w ++ c :: rest) := by
    cases w with
    | nil => exact absurd rfl hne
    | cons b w => exact sign_of_digit (hdigits b List.mem_cons_self) _
  have hcdigit : Decimal.isDigit c = false := by
    cases hd : Decimal.isDigit c with
    | false => rfl
    | true => simp [isSpace_of_isDigit hd] at hc
  obtain ⟨htake, hdrop⟩ := takeWhile_append_of_all hdigits hcdigit rest
  have hsize : ¬ UInt32.size ≤ v.toNat := Nat.not_le.mpr v.toNat_lt
  rw [number, skipws_of_good ⟨rfl, rfl⟩ hskip (by simp)]
  simp [hsign, htake, hdrop, hvalue, hne, hsize]

/-- At the end of the text behind white space, an extraction fails at the end of the file. -/
theorem word_of_space {pre : List UInt8} (hpre : ∀ b ∈ pre, isSpace b = true) :
    word { rest := pre } = (none, { rest := [], eofbit := true, failbit := true }) := by
  have hskip : pre.dropWhile isSpace = [] := List.dropWhile_eq_nil_iff.mpr hpre
  simp [word, skipws, hskip]

/-! ### Progress -/

theorem skipws_length_le (s : TextStream) : s.skipws.rest.length ≤ s.rest.length := by
  unfold skipws
  split
  · exact le_rfl
  · split
    · exact Nat.zero_le _
    · rename_i rest hrest
      exact (List.dropWhile_suffix _).length_le

theorem word_length_lt {s s' : TextStream} {w : List UInt8} (h : s.word = (some w, s')) :
    s'.rest.length < s.rest.length := by
  unfold word at h
  simp only at h
  split at h
  · cases h
  · rename_i hgood
    obtain ⟨-, rfl⟩ := Prod.mk.inj h
    refine lt_of_lt_of_le ?_ s.skipws_length_le
    -- the first character behind the white space belongs to the word
    have hfirst : ∃ b rest, s.skipws.rest = b :: rest ∧ isSpace b = false := by
      unfold skipws at hgood ⊢
      split
      · rename_i hbad
        rw [if_pos hbad] at hgood
        simp at hgood
      · rename_i hbad
        rw [if_neg hbad] at hgood
        cases hrest : s.rest.dropWhile isSpace with
        | nil =>
          rw [hrest] at hgood
          simp at hgood
        | cons b rest =>
          refine ⟨b, rest, rfl, ?_⟩
          have := List.head_dropWhile_not isSpace (l := s.rest) (by simp [hrest])
          simpa [hrest] using this
    obtain ⟨b, rest, hrest, hb⟩ := hfirst
    simp only [hrest, List.dropWhile_cons, hb, Bool.not_false, if_true, List.length_cons]
    exact Nat.lt_succ_of_le (List.dropWhile_suffix _).length_le

theorem number_length_le {s s' : TextStream} {v : Option UInt32} (h : s.number = (v, s')) :
    s'.rest.length ≤ s.rest.length := by
  have hsign : ∀ text : List UInt8, (sign text).2.length ≤ text.length := by
    intro text
    unfold sign
    split <;> simp
  unfold number at h
  simp only at h
  split at h
  · obtain ⟨-, rfl⟩ := Prod.mk.inj h
    exact s.skipws_length_le
  · have hrest : ((sign s.skipws.rest).2.dropWhile Decimal.isDigit).length ≤ s.rest.length :=
      (List.dropWhile_suffix _).length_le.trans ((hsign _).trans s.skipws_length_le)
    split at h
    · obtain ⟨-, rfl⟩ := Prod.mk.inj h
      exact hrest
    · obtain ⟨-, rfl⟩ := Prod.mk.inj h
      exact hrest

end TextStream
