import ArenaGame.Server.Equiv.Durability

/-!
# User ids after loading any file

`load` refuses a file that names an account twice, but not one that gives the same user id to two
accounts.  The ids of the loaded accounts are those of the records of the file
(`map_id_entries_load`), and every later call keeps them unique (`Sound.call`), so the ids are
unique exactly if those in the file are (`idsUnique_iff`).
-/

namespace ArenaGame.AccountRepository

/-! ### The records of a file -/

/-- The records that the loop of `load` reads. -/
def recordsIn (input : TextStream) : List (StdString × StdString × UInt32 × UInt32) :=
  match _h : readRecord input with
  | (none, _) => []
  | (some fields, input) => fields :: recordsIn input
termination_by input.rest.length
decreasing_by exact readRecord_length_lt _h

/-- The user ids in an account file, line by line. -/
def idsIn : Option (List UInt8) → List UInt32
  | none => []
  | some text => (recordsIn { rest := text }).map fun fields => fields.2.2.1

theorem recordsIn_of_none {input input' : TextStream} (h : readRecord input = (none, input')) :
    recordsIn input = [] := by
  rw [recordsIn]
  split
  · rfl
  · rename_i hsome
    rw [h] at hsome
    cases hsome

theorem recordsIn_of_some {input input' : TextStream} {fields}
    (h : readRecord input = (some fields, input')) :
    recordsIn input = fields :: recordsIn input' := by
  rw [recordsIn]
  split
  · rename_i hnone
    rw [h] at hnone
    cases hnone
  · rename_i fields' input₁ hsome
    obtain ⟨heq, rfl⟩ := Prod.mk.inj (hsome.symm.trans h)
    rw [Option.some.inj heq]

/-- The user id of an entry of the map. -/
def entryId (entry : AccountEntry) : UInt32 := entry.2.account_.userId_

theorem Loads.map_id_entries {input : TextStream} {loaded : Accounts} {next : UInt32}
    {out : TextStream × Accounts × UInt32} (h : Loads input loaded next out) :
    out.2.1.entries.map entryId =
      ((recordsIn input).map fun fields => fields.2.2.1).reverse ++ loaded.entries.map entryId := by
  induction h with
  | done hread =>
    rw [recordsIn_of_none hread]
    rfl
  | record hread hvalid hname _ ih =>
    rw [AList.entries_insert_of_notMem hname] at ih
    rw [ih, recordsIn_of_some hread]
    simp [entryId]

/-- The loaded accounts have the ids that the file gives them. -/
theorem map_id_entries_load {repo : AccountRepository} {file : Option (List UInt8)}
    (h : load { file_ := file } = (true, repo)) :
    repo.accounts_.entries.map entryId = (idsIn file).reverse := by
  rcases load_cases h with ⟨rfl, haccounts, -⟩ | ⟨text, out, rfl, hloads, haccounts, -⟩
  · rw [haccounts]
    rfl
  · have hids := hloads.map_id_entries
    rw [show (∅ : Accounts).entries = [] from rfl, List.map_nil, List.append_nil] at hids
    rw [haccounts]
    exact hids

/-! ### Unique ids -/

theorem uniqueIds_iff (accounts : Accounts) :
    UniqueIds accounts ↔ (accounts.entries.map entryId).Nodup := by
  have hentries : accounts.entries.Nodup := accounts.nodupKeys.nodup
  rw [List.nodup_map_iff_inj_on hentries]
  constructor
  · intro hunique x hx y hy hid
    have hlx : accounts.lookup x.1 = some x.2 := AList.mem_lookup_iff.mpr hx
    have hly : accounts.lookup y.1 = some y.2 := AList.mem_lookup_iff.mpr hy
    have hname : x.1 = y.1 := hunique hlx hly hid
    rw [hname, hly] at hlx
    exact Sigma.ext hname (heq_of_eq (Option.some.inj hlx).symm)
  · intro hinj name name' record record' hr hr' hid
    have hx := AList.mem_lookup_iff.mp hr
    have hy := AList.mem_lookup_iff.mp hr'
    exact congrArg Sigma.fst (hinj ⟨name, record⟩ hx ⟨name', record'⟩ hy hid)

/-- The loop of `updateEloPair` meets at most one account of each user. -/
theorem length_filter_le_one {accounts : Accounts} (h : UniqueIds accounts) (io : SaveIO)
    (u : UInt32) : ((io.order accounts.entries).filter (entryId · = u)).length ≤ 1 := by
  have hnodup : ((io.order accounts.entries).map entryId).Nodup :=
    ((io.order_perm _).map entryId).nodup_iff.mpr ((uniqueIds_iff accounts).mp h)
  have hcount := List.nodup_iff_count_le_one.mp hnodup u
  rw [List.count, List.countP_map, List.countP_eq_length_filter] at hcount
  refine le_of_eq_of_le (congrArg List.length (List.filter_congr fun e _ => ?_)) hcount
  simp [BEq.beq, Function.comp]

/-! ### Calls -/

inductive Call
  | register (io : SaveIO) (userName password : StdString) (outAccount : Account)
  | verify (userName password : StdString) (outAccount : Account)
  | updateEloPair (io : SaveIO) (firstUserId firstElo secondUserId secondElo : UInt32)

/-- The repository after a call; `Verify` is `const`. -/
def Call.apply (repo : AccountRepository) : Call → AccountRepository
  | register io userName password outAccount => (repo.Register io userName password outAccount).2.2
  | verify _ _ _ => repo
  | updateEloPair io u e v f => (repo.updateEloPair io u e v f).2

theorem Sound.call {repo : AccountRepository} (h : Sound repo) (call : Call) :
    Sound (call.apply repo) := by
  cases call with
  | register io userName password outAccount =>
    have hspec := register_spec repo io userName password outAccount
    by_cases hok : (repo.Register io userName password outAccount).1 = .kOk
    · exact h.registered (hspec.2 hok)
    · exact h.unchanged (hspec.1 hok).2
  | verify userName password outAccount => exact h
  | updateEloPair io u e v f =>
    have hspec := updateEloPair_spec repo io u e v f h.unique
    cases hok : (repo.updateEloPair io u e v f).1 with
    | true => exact h.updated (hspec.2 hok)
    | false => exact h.unchanged (hspec.1 hok)

theorem Sound.calls {repo : AccountRepository} (h : Sound repo) (calls : List Call) :
    Sound (calls.foldl Call.apply repo) := by
  induction calls generalizing repo with
  | nil => exact h
  | cons call calls ih => exact ih (h.call call)

/-- User ids are nonzero and unique, and the next one is new. -/
structure IdsUnique (repo : AccountRepository) : Prop where
  ne_zero : ∀ id, IdIn repo.accounts_ id → id ≠ 0
  unique : (repo.accounts_.entries.map entryId).Nodup
  next : repo.nextUserId_ = 0 ∨ ∀ id, IdIn repo.accounts_ id → id < repo.nextUserId_
  next_zero : repo.nextUserId_ = 0 → IdIn repo.accounts_ 4294967295
  registered : ∀ io userName password outAccount,
    (repo.Register io userName password outAccount).1 = .kOk →
      ¬ IdIn repo.accounts_ (repo.Register io userName password outAccount).2.1.userId_
  scanned : ∀ (io : SaveIO) (u : UInt32),
    ((io.order repo.accounts_.entries).filter (entryId · = u)).length ≤ 1

theorem Sound.idsUnique {repo : AccountRepository} (h : Sound repo) : IdsUnique repo where
  ne_zero := by
    rintro id ⟨name, record, -, rfl⟩
    exact record.userId_ne_zero
  unique := (uniqueIds_iff _).mp h.unique
  next := by
    by_cases h0 : repo.nextUserId_ = 0
    · exact Or.inl h0
    · exact Or.inr (h.next.above h0)
  next_zero := h.next.zero
  registered := by
    intro io userName password outAccount hok hid
    have hreg : Registered repo userName password
        (repo.Register io userName password outAccount).2.1
        (repo.Register io userName password outAccount).2.2 :=
      (register_spec repo io userName password outAccount).2 hok
    have hlt := h.next.above hreg.next_ne_zero _ hid
    rw [hreg.account_eq] at hlt
    exact absurd hlt (UInt32.lt_irrefl _)
  scanned := length_filter_le_one h.unique

/-- **User ids stay unique exactly if they are unique in the file.**  `load` accepts a file in which
two accounts have the same id; apart from that the ids are unique and new ones are new, whatever
calls follow. -/
theorem idsUnique_iff (file : Option (List UInt8)) (repo : AccountRepository)
    (hload : load { file_ := file } = (true, repo)) :
    (∀ calls : List Call, IdsUnique (calls.foldl Call.apply repo)) ↔ (idsIn file).Nodup := by
  have hids := map_id_entries_load hload
  constructor
  · intro h
    have hunique := (h []).unique
    rw [List.foldl_nil, hids] at hunique
    exact List.nodup_reverse.mp hunique
  · intro hnodup calls
    obtain ⟨hkeyed, hnext⟩ := load_spec file hload
    have hunique : UniqueIds repo.accounts_ := by
      rw [uniqueIds_iff, hids]
      exact List.nodup_reverse.mpr hnodup
    exact (Sound.calls ⟨hkeyed, hunique, hnext⟩ calls).idsUnique

/-- The file with the lines `a p 7 1` and `b p 3 1`. -/
def twoIds : List UInt8 := [97, 32, 112, 32, 55, 32, 49, 10, 98, 32, 112, 32, 51, 32, 49, 10]

/-- `c` is registered. -/
def newcomer : Call :=
  .register ⟨List.reverse, List.reverse_perm, true, true, true⟩ (StdString.ofLiteral "c")
    (StdString.ofLiteral "p") {}

theorem idsUnique_twoIds :
    let repo := newcomer.apply (load { file_ := some twoIds }).2
    IdsUnique repo ∧ repo.accounts_.entries.map entryId = [8, 3, 7] :=
  ⟨(idsUnique_iff (some twoIds) (load { file_ := some twoIds }).2
    (Prod.ext (by decide +kernel) rfl)).mpr (by decide +kernel) [newcomer], by decide +kernel⟩

/-- The file with the lines `a p 1 1` and `b p 1 1`. -/
def sameId : List UInt8 := [97, 32, 112, 32, 49, 32, 49, 10, 98, 32, 112, 32, 49, 32, 49, 10]

/-- Two accounts with the user id 1 are loaded. -/
theorem not_idsUnique :
    ¬ ∀ (file : Option (List UInt8)) (repo : AccountRepository),
      load { file_ := file } = (true, repo) →
      ∀ calls : List Call, IdsUnique (calls.foldl Call.apply repo) := by
  intro h
  have hload : load { file_ := some sameId } = (true, (load { file_ := some sameId }).2) :=
    Prod.ext (by decide +kernel) rfl
  have hunique := (h (some sameId) _ hload []).unique
  rw [List.foldl_nil, map_id_entries_load hload] at hunique
  exact absurd hunique (by decide +kernel)

end ArenaGame.AccountRepository
