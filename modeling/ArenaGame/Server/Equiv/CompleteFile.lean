import ArenaGame.Server.Equiv.Durability
import ArenaGame.Util.Tokens

/-!
# Files that `load` shortens

The loop of `load` ends at the first extraction that fails, and `load` then succeeds if the end of
the file was met.  If the tokens of the file are records, that happens behind the last of them
(`Loads.of_tokens`).  It also happens within a record that the end of the file cuts off, and a
number that is not followed by white space leaves the rest of its token to the next extraction.
-/

namespace ArenaGame.AccountRepository

open TextStream (tokens numeral Between)

/-- The tokens come in fours, and the third and the fourth of each four are numerals. -/
def InFours : List (List UInt8) → Prop
  | [] => True
  | [_] => False
  | [_, _] => False
  | [_, _, _] => False
  | _ :: _ :: userId :: elo :: ts => numeral userId ≠ none ∧ numeral elo ≠ none ∧ InFours ts

/-- The tokens are names, passwords, ids and ELOs of the records, one record after the other. -/
def Spells : List AccountRecord → List (List UInt8) → Prop
  | [], ts => ts = []
  | record :: records, ts =>
    ∃ userId elo ts', ts = record.account_.userName_ :: record.password_ :: userId :: elo :: ts' ∧
      numeral userId = some record.account_.userId_ ∧ numeral elo = some record.account_.elo_ ∧
      Spells records ts'

theorem Spells.inFours {records : List AccountRecord} {ts : List (List UInt8)}
    (h : Spells records ts) : InFours ts := by
  induction records generalizing ts with
  | nil =>
    obtain rfl : ts = [] := h
    trivial
  | cons record records ih =>
    obtain ⟨userId, elo, ts', rfl, hid, helo, hrest⟩ := h
    exact ⟨by simp [hid], by simp [helo], ih hrest⟩

/-- A record is read off its four tokens. -/
theorem readRecord_of_tokens {input : TextStream} (hs : Between input)
    {userName password userId elo : List UInt8} {ts : List (List UInt8)}
    (h : tokens input.rest = userName :: password :: userId :: elo :: ts) {v w : UInt32}
    (hv : numeral userId = some v) (hw : numeral elo = some w) :
    ∃ rest, readRecord input =
        (some (userName, password, v, w), { rest := rest, eofbit := rest.isEmpty }) ∧
      tokens rest = ts := by
  obtain ⟨rest₁, h₁, ht₁⟩ := hs.word h
  obtain ⟨rest₂, h₂, ht₂⟩ := (TextStream.between_isEmpty rest₁).word ht₁
  obtain ⟨rest₃, h₃, ht₃⟩ := (TextStream.between_isEmpty rest₂).number ht₂ hv
  obtain ⟨rest₄, h₄, ht₄⟩ := (TextStream.between_isEmpty rest₃).number ht₃ hw
  refine ⟨rest₄, ?_, ht₄⟩
  simp only [readRecord, h₁, h₂, h₃, h₄]

theorem readRecord_of_tokens_nil {input : TextStream} (h : tokens input.rest = []) :
    (readRecord input).1 = none := by
  have hword := TextStream.word_of_tokens_nil h
  unfold readRecord
  split
  · rfl
  · rename_i hsome
    rw [hsome] at hword
    cases hword

/-- If the tokens come in records, the loop stores all of them. -/
theorem Loads.of_tokens {input : TextStream} {loaded : Accounts} {next : UInt32}
    {out : TextStream × Accounts × UInt32} (hs : Between input) (hfours : InFours (tokens input.rest))
    (h : Loads input loaded next out) :
    (∃ records, Spells records (tokens input.rest) ∧
      ∀ record ∈ records, out.2.1.lookup record.account_.userName_ = some record) ∧
    ∀ name record, loaded.lookup name = some record → out.2.1.lookup name = some record := by
  -- on the tokens that are left, four at a time; the stream and the store vary
  induction hts : tokens input.rest using InFours.induct generalizing input loaded next with
  | case1 =>
    have hnone := readRecord_of_tokens_nil hts
    cases h with
    | done _ => exact ⟨⟨[], rfl, List.forall_mem_nil _⟩, fun _ _ hr => hr⟩
    | record hread =>
      rw [hread] at hnone
      cases hnone
  | case2 => rw [hts] at hfours; exact hfours.elim
  | case3 => rw [hts] at hfours; exact hfours.elim
  | case4 => rw [hts] at hfours; exact hfours.elim
  | case5 userName password userId elo ts ih =>
    rw [hts] at hfours
    obtain ⟨hid, helo, hfours⟩ := hfours
    obtain ⟨v, hv⟩ := Option.ne_none_iff_exists'.mp hid
    obtain ⟨w, hw⟩ := Option.ne_none_iff_exists'.mp helo
    obtain ⟨rest, hread, hrest⟩ := readRecord_of_tokens hs hts hv hw
    cases h with
    | done hread' =>
      rw [hread] at hread'
      cases hread'
    | @record _ _ _ _ _ userName' password' userId' elo' hread' hvalid hname h =>
      obtain ⟨hfields, rfl⟩ := Prod.mk.inj (hread.symm.trans hread')
      obtain ⟨rfl, rfl, rfl, rfl⟩ : userName = userName' ∧ password = password' ∧ v = userId' ∧
          w = elo' := by simpa using hfields
      obtain ⟨⟨records, hspells, hstored⟩, hkept⟩ :=
        ih (TextStream.between_isEmpty rest) (by rw [hrest]; exact hfours) h hrest
      let record : AccountRecord :=
        { account_ := { userId_ := v, userName_ := userName, elo_ := w }
          password_ := password
          valid := hvalid.1
          userId_ne_zero := hvalid.2 }
      -- the name was free, so no later record writes over this one
      have hlast : out.2.1.lookup userName = some record :=
        hkept userName record (AList.lookup_insert loaded)
      refine ⟨⟨record :: records, ⟨userId, elo, ts, rfl, hv, hw, hspells⟩, ?_⟩, ?_⟩
      · intro record' hrecord
        rcases List.mem_cons.mp hrecord with rfl | hrecord
        · exact hlast
        · exact hstored record' hrecord
      · intro name record hr
        have hne : name ≠ userName := by
          rintro rfl
          rw [AList.lookup_eq_none.mpr hname] at hr
          cases hr
        apply hkept name record
        rw [AList.lookup_insert_ne hne]
        exact hr

/-- Every token of the file belongs to a complete record that is stored, and a save keeps it. -/
def Faithful (text : List UInt8) (repo : AccountRepository) : Prop :=
  ∃ records, Spells records (tokens text) ∧
    (∀ record ∈ records, repo.accounts_.lookup record.account_.userName_ = some record) ∧
    ∀ io, (repo.save io).1 = true → ∃ entries : List AccountEntry,
      (repo.save io).2.file_ = some (entries.flatMap fun entry => recordLine entry.2) ∧
      ∀ record ∈ records, ⟨record.account_.userName_, record⟩ ∈ entries

/-- **A file that `load` accepts is loaded completely if and only if its tokens come in fours with
two numerals.**  Otherwise the end of the file has cut off a record, or a number has been taken out
of a longer token. -/
theorem faithful_iff (text : List UInt8) (repo : AccountRepository)
    (hload : load { file_ := some text } = (true, repo)) :
    Faithful text repo ↔ InFours (tokens text) := by
  constructor
  · rintro ⟨records, hspells, -⟩
    exact hspells.inFours
  · intro hfours
    rcases load_cases hload with ⟨hnone, -⟩ | ⟨_, out, htext, hloads, haccounts, -⟩
    · cases hnone
    · obtain rfl := Option.some.inj htext
      obtain ⟨⟨records, hspells, hstored⟩, -⟩ := hloads.of_tokens (TextStream.between_start text) hfours
      rw [← haccounts] at hstored
      refine ⟨records, hspells, hstored, fun io hsave => ?_⟩
      rcases save_cases _ io with hcases | hcases
      · rw [hcases] at hsave
        cases hsave
      · rw [hcases]
        refine ⟨_, rfl, fun record hrecord => ?_⟩
        rw [(io.order_perm _).mem_iff]
        exact AList.mem_lookup_iff.mp (hstored record hrecord)

/-- The file with the lines `a p 1 9` and `b p 2 8`, the last without its end. -/
def twoRecords : List UInt8 := [97, 32, 112, 32, 49, 32, 57, 10, 98, 32, 112, 32, 50, 32, 56]

theorem faithful_twoRecords : Faithful twoRecords (load { file_ := some twoRecords }).2 :=
  (faithful_iff twoRecords (load { file_ := some twoRecords }).2
    (Prod.ext (by decide +kernel) rfl)).mpr
    (by
      have htokens : tokens twoRecords = [[97], [112], [49], [57], [98], [112], [50], [56]] := by
        decide +kernel
      rw [htokens]
      exact ⟨by decide +kernel, by decide +kernel, by decide +kernel, by decide +kernel, trivial⟩)

/-- The file with the line `a p 1 9`, cut off within the next one behind `b p`. -/
def cutOff : List UInt8 := [97, 32, 112, 32, 49, 32, 57, 10, 98, 32, 112]

/-- The account of `b` is dropped without an error. -/
theorem not_faithful :
    ¬ ∀ (text : List UInt8) (repo : AccountRepository),
      load { file_ := some text } = (true, repo) → Faithful text repo := by
  intro h
  obtain ⟨records, hspells, -⟩ := h cutOff (load { file_ := some cutOff }).2
    (Prod.ext (by decide +kernel) rfl)
  have htokens : tokens cutOff = [[97], [112], [49], [57], [98], [112]] := by decide +kernel
  have hfours := hspells.inFours
  rw [htokens] at hfours
  exact hfours.2.2

end ArenaGame.AccountRepository
