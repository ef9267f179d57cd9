import ArenaGame.Server.AccountRepository

/-!
# The accounts in memory and in the file

The accounts are looked at through `lookup`; their order in memory and in the file is irrelevant.

`Represents records accounts` says that a list of records, in whatever order, is the contents of
the map.  The file is a list of lines, one for each record, and `load` reads back exactly what they
represent (`load_file`).  The next user id is determined by the ids in use (`NextId.unique`), so the
counter in memory and the one that `load` computes agree.

Whatever the file is, after a successful `load` the accounts are stored under their names and the
next user id is determined by theirs (`load_spec`).
-/

namespace ArenaGame

theorem AccountRecord.ext {r r' : AccountRecord} (h : r.account_ = r'.account_)
    (hp : r.password_ = r'.password_) : r = r' := by
  cases r
  cases r'
  simp only at h hp
  subst h hp
  rfl

namespace AccountRepository

/-! ### Names and passwords are tokens -/

theorem isValidInput_spec {userName password : StdString}
    (h : isValidInput userName password = true) :
    userName ≠ [] ∧ password ≠ [] ∧ (∀ b ∈ userName, TextStream.isSpace b = false) ∧
      ∀ b ∈ password, TextStream.isSpace b = false := by
  unfold isValidInput at h
  split at h
  · cases h
  · rename_i hlen
    simp only [Bool.or_eq_true, List.isEmpty_iff, decide_eq_true_eq, not_or] at hlen
    simp only [Bool.and_eq_true, List.all_eq_true, Bool.not_eq_eq_eq_not, Bool.not_true] at h
    exact ⟨hlen.1.1.1, hlen.1.2, h.1, h.2⟩

theorem length_le_of_isValidInput {userName password : StdString}
    (h : isValidInput userName password = true) : userName.length ≤ 32 := by
  unfold isValidInput at h
  split at h
  · cases h
  · rename_i hlen
    simp only [Bool.or_eq_true, List.isEmpty_iff, decide_eq_true_eq, not_or, not_lt] at hlen
    exact hlen.1.1.2

/-- A line is read back field by field; the line feed stays in front of the next line. -/
theorem readRecord_recordLine {pre : List UInt8} (hpre : ∀ b ∈ pre, TextStream.isSpace b = true)
    (record : AccountRecord) (rest : List UInt8) :
    readRecord { rest := pre ++ (recordLine record ++ rest) } =
      (some (record.account_.userName_, record.password_, record.account_.userId_,
        record.account_.elo_), { rest := 10 :: rest }) := by
  obtain ⟨hname, hpassword, hnames, hpasswords⟩ := isValidInput_spec record.valid
  have hblank : ∀ b ∈ ([32] : List UInt8), TextStream.isSpace b = true := by simp [TextStream.isSpace]
  have h32 : TextStream.isSpace 32 = true := rfl
  have h10 : TextStream.isSpace 10 = true := rfl
  have hword₁ := TextStream.word_append hpre hname hnames h32
    (record.password_ ++ 32 :: (Decimal.toBytes record.account_.userId_.toNat ++ 32 ::
      (Decimal.toBytes record.account_.elo_.toNat ++ 10 :: rest)))
  have hword₂ := TextStream.word_append hblank hpassword hpasswords h32
    (Decimal.toBytes record.account_.userId_.toNat ++ 32 ::
      (Decimal.toBytes record.account_.elo_.toNat ++ 10 :: rest))
  have hnumber₁ := TextStream.number_append hblank record.account_.userId_ h32
    (Decimal.toBytes record.account_.elo_.toNat ++ 10 :: rest)
  have hnumber₂ := TextStream.number_append hblank record.account_.elo_ h10 rest
  rw [List.singleton_append] at hword₂ hnumber₁ hnumber₂
  simp only [readRecord, recordLine, List.append_assoc, List.cons_append, List.nil_append,
    hword₁, hword₂, hnumber₁, hnumber₂]

theorem readRecord_of_space {pre : List UInt8} (hpre : ∀ b ∈ pre, TextStream.isSpace b = true) :
    readRecord { rest := pre } = (none, { rest := [], eofbit := true, failbit := true }) := by
  simp only [readRecord, TextStream.word_of_space hpre]

/-! ### The ids in use and the next one -/

/-- `next` is what the counter must be when the ids of `ids` are in use. -/
structure NextId (ids : UInt32 → Prop) (next : UInt32) : Prop where
  zero : next = 0 → ids 4294967295
  above : next ≠ 0 → ∀ id, ids id → id < next
  last : next ≠ 0 → next = 1 ∨ ids (next - 1)

theorem ne_max_of_lt {id next : UInt32} (h : id < next) : id ≠ 4294967295 := by
  rintro rfl
  have hlt : (4294967295 : ℕ) < next.toNat := h
  have := next.toNat_lt
  omega

theorem NextId.unique {ids : UInt32 → Prop} {n m : UInt32} (hn : NextId ids n)
    (hm : NextId ids m) : n = m := by
  have hzero : ∀ {n m : UInt32}, NextId ids n → NextId ids m → n = 0 → m = 0 := by
    intro n m hn hm h0
    by_contra hne
    exact ne_max_of_lt (hm.above hne _ (hn.zero h0)) rfl
  have hle : ∀ {n m : UInt32}, NextId ids n → NextId ids m → n ≠ 0 → m ≠ 0 →
      m.toNat ≤ n.toNat := by
    intro n m hn hm hn0 hm0
    have hnpos : n.toNat ≠ 0 := fun h => hn0 (UInt32.toNat_inj.mp h)
    rcases hm.last hm0 with rfl | hlast
    · show 1 ≤ n.toNat
      omega
    · have hlt : (m - 1).toNat < n.toNat := hn.above hn0 _ hlast
      have hmpos : m.toNat ≠ 0 := fun h => hm0 (UInt32.toNat_inj.mp h)
      have h1 : (1 : UInt32) ≤ m := by
        show 1 ≤ m.toNat
        omega
      rw [UInt32.toNat_sub_of_le _ _ h1] at hlt
      change m.toNat - 1 < n.toNat at hlt
      omega
  by_cases hn0 : n = 0
  · rw [hn0, hzero hn hm hn0]
  · have hm0 : m ≠ 0 := fun h => hn0 (hzero hm hn h)
    exact UInt32.toNat_inj.mp (le_antisymm (hle hm hn hm0 hn0) (hle hn hm hn0 hm0))

theorem toNat_add_one {id : UInt32} (h : id ≠ 4294967295) : (id + 1).toNat = id.toNat + 1 := by
  have hne : id.toNat ≠ 4294967295 := fun heq => h (UInt32.toNat_inj.mp heq)
  have hlt := id.toNat_lt
  rw [UInt32.toNat_add]
  exact Nat.mod_eq_of_lt (by show id.toNat + 1 < 2 ^ 32; omega)

theorem add_one_sub_one (id : UInt32) : id + 1 - 1 = id := by
  rw [UInt32.add_sub_cancel]

/-- One more id in use. -/
theorem NextId.nextAfter {ids : UInt32 → Prop} {next : UInt32} (h : NextId ids next)
    (id : UInt32) : NextId (fun i => i = id ∨ ids i) (nextAfter next id) := by
  unfold AccountRepository.nextAfter
  split
  · rename_i hmax
    exact ⟨fun _ => Or.inl hmax.symm, fun hne => absurd rfl hne, fun hne => absurd rfl hne⟩
  · rename_i hmax
    have hsucc := toNat_add_one hmax
    split
    · rename_i hge
      refine ⟨fun h0 => ?_, fun _ i hi => ?_, fun _ => Or.inr (Or.inl (add_one_sub_one id))⟩
      · rw [h0] at hsucc
        exact absurd hsucc (by simp)
      · show i.toNat < (id + 1).toNat
        rw [hsucc]
        rcases hi with rfl | hi
        · omega
        · have hlt : i.toNat < next.toNat := h.above hge.1 i hi
          have hle : next.toNat ≤ id.toNat := hge.2
          omega
    · rename_i hlt
      refine ⟨fun h0 => Or.inr (h.zero h0), fun hne i hi => ?_, fun hne => ?_⟩
      · rcases hi with rfl | hi
        · exact UInt32.not_le.mp fun hle => hlt ⟨hne, hle⟩
        · exact h.above hne i hi
      · rcases h.last hne with h1 | hlast
        · exact Or.inl h1
        · exact Or.inr (Or.inr hlast)

theorem NextId.congr {ids ids' : UInt32 → Prop} {next : UInt32} (h : NextId ids next)
    (heq : ∀ i, ids i ↔ ids' i) : NextId ids' next := by
  obtain rfl : ids = ids' := funext fun i => propext (heq i)
  exact h

/-! ### Maps and lists of records -/

/-- The user ids in use. -/
def IdIn (accounts : Accounts) (id : UInt32) : Prop :=
  ∃ name record, accounts.lookup name = some record ∧ record.account_.userId_ = id

/-- The contents of the map are the records of the list. -/
structure Represents (records : List AccountRecord) (accounts : Accounts) : Prop where
  nodup : (records.map fun r => r.account_.userName_).Nodup
  lookup_iff : ∀ name record, accounts.lookup name = some record ↔
    record ∈ records ∧ record.account_.userName_ = name

theorem lookup_insert (accounts : Accounts) (name : StdString) (record : AccountRecord)
    (name' : StdString) :
    (accounts.insert name record).lookup name' =
      if name' = name then some record else accounts.lookup name' := by
  by_cases h : name' = name
  · subst h
    rw [if_pos rfl, AList.lookup_insert]
  · rw [if_neg h, AList.lookup_insert_ne h]

theorem lookup_erase (accounts : Accounts) (name name' : StdString) :
    (accounts.erase name).lookup name' =
      if name' = name then none else accounts.lookup name' := by
  by_cases h : name' = name
  · subst h
    rw [if_pos rfl, AList.lookup_erase]
  · rw [if_neg h, AList.lookup_erase_ne h]

theorem lookup_setElo (accounts : Accounts) (name : StdString) (elo : UInt32)
    (name' : StdString) :
    (setElo accounts name elo).lookup name' =
      if name' = name then (accounts.lookup name).map (·.withElo elo)
      else accounts.lookup name' := by
  unfold setElo
  cases h : accounts.lookup name with
  | none =>
    by_cases hn : name' = name
    · rw [if_pos hn, hn, h]
      rfl
    · rw [if_neg hn]
  | some record => rw [lookup_insert, Option.map_some]

theorem represents_congr {records : List AccountRecord} {accounts accounts' : Accounts}
    (h : Represents records accounts) (hsame : ∀ name, accounts'.lookup name = accounts.lookup name) :
    Represents records accounts' :=
  ⟨h.nodup, fun name record => by rw [hsame, h.lookup_iff]⟩

/-- `Verify` hands out a stored account to those who know its password. -/
theorem verify_spec {repo : AccountRepository} {userName password : StdString} {outAccount : Account}
    (h : (repo.Verify userName password outAccount).1 = .kOk) :
    ∃ record, repo.accounts_.lookup userName = some record ∧ record.password_ = password ∧
      (repo.Verify userName password outAccount).2 = record.account_ := by
  unfold Verify at h ⊢
  split at h
  · cases h
  · rename_i hvalid
    rw [if_neg hvalid]
    split at h
    · cases h
    · rename_i record hrecord
      split at h
      · cases h
      · rename_i hpassword
        exact ⟨record, hrecord, not_not.mp hpassword, by simp only [if_neg hpassword]⟩

/-- The traversal of a map whose records are stored under their names. -/
theorem represents_of_perm {accounts : Accounts} {entries : List AccountEntry}
    (hperm : entries.Perm accounts.entries)
    (hkeyed : ∀ name record, accounts.lookup name = some record →
      record.account_.userName_ = name) :
    Represents (entries.map Sigma.snd) accounts := by
  have hmem : ∀ name record, accounts.lookup name = some record ↔ ⟨name, record⟩ ∈ entries := by
    intro name record
    rw [hperm.mem_iff]
    exact AList.mem_lookup_iff
  have hkey : ∀ entry ∈ entries, entry.2.account_.userName_ = entry.1 := fun entry hentry =>
    hkeyed entry.1 entry.2 ((hmem entry.1 entry.2).mpr hentry)
  refine ⟨?_, fun name record => ?_⟩
  · have hnames : (entries.map Sigma.snd).map (fun r => r.account_.userName_) =
        entries.map Sigma.fst := by
      rw [List.map_map]
      exact List.map_congr_left hkey
    rw [hnames]
    exact (hperm.map Sigma.fst).nodup_iff.mpr accounts.nodupKeys
  · rw [hmem]
    constructor
    · intro hentry
      exact ⟨List.mem_map.mpr ⟨_, hentry, rfl⟩, hkey _ hentry⟩
    · rintro ⟨hrecord, rfl⟩
      obtain ⟨entry, hentry, rfl⟩ := List.mem_map.mp hrecord
      rw [hkey entry hentry]
      exact hentry

theorem idIn_insert {accounts : Accounts} {name : StdString} (hnone : accounts.lookup name = none)
    (record : AccountRecord) (i : UInt32) :
    (i = record.account_.userId_ ∨ IdIn accounts i) ↔ IdIn (accounts.insert name record) i := by
  constructor
  · rintro (rfl | ⟨name', record', hrec, rfl⟩)
    · exact ⟨name, record, by rw [lookup_insert, if_pos rfl], rfl⟩
    · refine ⟨name', record', ?_, rfl⟩
      rw [lookup_insert, if_neg, hrec]
      rintro rfl
      simp [hnone] at hrec
  · rintro ⟨name', record', hrec, rfl⟩
    rw [lookup_insert] at hrec
    split at hrec
    · obtain rfl := Option.some.inj hrec
      exact Or.inl rfl
    · exact Or.inr ⟨name', record', hrec, rfl⟩

/-! ### Loading what was saved -/

/-- The loop of `load` on lines of records whose names are not loaded yet. -/
theorem loadLoop_lines (pre : List UInt8) (hpre : ∀ b ∈ pre, TextStream.isSpace b = true)
    (records : List AccountRecord) (loaded : Accounts) (next : UInt32)
    (hnodup : (records.map fun r => r.account_.userName_).Nodup)
    (hfresh : ∀ r ∈ records, r.account_.userName_ ∉ loaded)
    (hnext : NextId (IdIn loaded) next) :
    ∃ loaded' next', loadLoop { rest := pre ++ records.flatMap recordLine } loaded next =
        some ({ rest := [], eofbit := true, failbit := true }, loaded', next') ∧
      (∀ name record, loaded'.lookup name = some record ↔
        (record ∈ records ∧ record.account_.userName_ = name) ∨
          loaded.lookup name = some record) ∧
      NextId (IdIn loaded') next' := by
  -- on the records that are left; `pre` is the newline which the last read stopped at
  induction records generalizing pre loaded next with
  | nil =>
    refine ⟨loaded, next, ?_, by simp, hnext⟩
    have hread := readRecord_of_space hpre
    rw [List.flatMap_nil, List.append_nil, loadLoop]
    split
    · rename_i h
      rw [hread] at h
      simp only [Prod.mk.injEq, true_and] at h
      rw [h]
    · rename_i h
      rw [hread] at h
      cases h
  | cons r records ih =>
    have hread := readRecord_recordLine hpre r (records.flatMap recordLine)
    rw [List.map_cons, List.nodup_cons] at hnodup
    have hr : r.account_.userName_ ∉ loaded := hfresh r List.mem_cons_self
    have hnone : loaded.lookup r.account_.userName_ = none := AList.lookup_eq_none.mpr hr
    have hfresh' : ∀ r' ∈ records, r'.account_.userName_ ∉ loaded.insert r.account_.userName_ r := by
      intro r' hr' hmem
      rcases (AList.mem_insert _).mp hmem with heq | hmem
      · exact hnodup.1 (List.mem_map.mpr ⟨r', hr', heq⟩)
      · exact hfresh r' (List.mem_cons_of_mem _ hr') hmem
    obtain ⟨loaded', next', hloop, hlookup, hnext'⟩ := ih [10]
      (by simp [TextStream.isSpace]) (loaded.insert r.account_.userName_ r)
      (nextAfter next r.account_.userId_) hnodup.2 hfresh'
      ((hnext.nextAfter r.account_.userId_).congr (idIn_insert hnone r))
    refine ⟨loaded', next', ?_, fun name record => ?_, hnext'⟩
    · rw [List.flatMap_cons, loadLoop]
      split
      · rename_i h
        rw [hread] at h
        cases h
      · rename_i h
        rw [hread] at h
        simp only [Prod.mk.injEq, Option.some.injEq] at h
        obtain ⟨⟨rfl, rfl, rfl, rfl⟩, rfl⟩ := h
        -- neither of the two checks refuses the record
        rw [dif_pos ⟨r.valid, r.userId_ne_zero⟩, if_neg hr]
        exact hloop
    · rw [hlookup, lookup_insert, List.mem_cons]
      by_cases hname : name = r.account_.userName_
      · subst hname
        rw [if_pos rfl, hnone]
        -- no later record has the name of this one
        constructor
        · rintro (⟨hmem, heq⟩ | heq)
          · exact absurd (List.mem_map.mpr ⟨record, hmem, heq⟩) hnodup.1
          · exact Or.inl ⟨Or.inl (Option.some.inj heq).symm, by rw [Option.some.inj heq]⟩
        · rintro (⟨rfl | hmem, heq⟩ | heq)
          · exact Or.inr rfl
          · exact absurd (List.mem_map.mpr ⟨record, hmem, heq⟩) hnodup.1
          · cases heq
      · rw [if_neg hname]
        constructor
        · rintro (⟨hmem, heq⟩ | heq)
          · exact Or.inl ⟨Or.inr hmem, heq⟩
          · exact Or.inr heq
        · rintro (⟨rfl | hmem, heq⟩ | heq)
          · exact absurd heq.symm hname
          · exact Or.inl ⟨hmem, heq⟩
          · exact Or.inr heq

theorem nextId_empty : NextId (IdIn ∅) 1 := by
  refine ⟨fun h => absurd h (by decide), fun _ id hid => ?_, fun _ => Or.inl rfl⟩
  obtain ⟨name, record, hrec, -⟩ := hid
  simp at hrec

/-- The file says what the records of the list are; an absent file says that there are none. -/
def FileOf (records : List AccountRecord) : Option (List UInt8) → Prop
  | none => records = []
  | some text => text = records.flatMap recordLine

/-- `load` restores what the file represents, and the counter that belongs to it. -/
theorem load_file {records : List AccountRecord} {accounts : Accounts} {next : UInt32}
    {file : Option (List UInt8)} (hrep : Represents records accounts)
    (hnext : NextId (IdIn accounts) next) (hfile : FileOf records file) :
    ∃ accounts', load { file_ := file } =
        (true, { file_ := file, nextUserId_ := next, accounts_ := accounts' }) ∧
      ∀ name, accounts'.lookup name = accounts.lookup name := by
  cases file with
  | none =>
    obtain rfl : records = [] := hfile
    -- no file has been written yet, so there is no account
    have hempty : ∀ name, (∅ : Accounts).lookup name = accounts.lookup name := by
      intro name
      cases h : accounts.lookup name with
      | none => simp
      | some record => exact absurd ((hrep.lookup_iff name record).mp h).1 List.not_mem_nil
    have hids : ∀ i, IdIn ∅ i ↔ IdIn accounts i := by
      intro i
      simp only [IdIn, hempty]
    refine ⟨∅, ?_, hempty⟩
    rw [hnext.unique (nextId_empty.congr hids)]
    rfl
  | some text =>
    obtain rfl : text = _ := hfile
    obtain ⟨accounts', next', hloop, hlookup, hnext'⟩ := loadLoop_lines [] (by simp)
      records ∅ 1 hrep.nodup (by simp) nextId_empty
    have hsame : ∀ name, accounts'.lookup name = accounts.lookup name := by
      intro name
      apply Option.ext
      intro record
      have := hlookup name record
      rw [AList.lookup_empty] at this
      rw [this, hrep.lookup_iff]
      simp
    have hids : ∀ i, IdIn accounts' i ↔ IdIn accounts i := by
      intro i
      simp only [IdIn, hsame]
    rw [List.nil_append] at hloop
    refine ⟨accounts', ?_, hsame⟩
    rw [load]
    simp only [hloop]
    rw [hnext'.unique (hnext.congr fun i => (hids i).symm)]
    rfl

/-! ### Loading any file -/

/-- A loop over a file that succeeds, record by record. -/
inductive Loads : TextStream → Accounts → UInt32 → TextStream × Accounts × UInt32 → Prop
  | done {input input' : TextStream} {loaded : Accounts} {next : UInt32}
      (hread : readRecord input = (none, input')) : Loads input loaded next (input', loaded, next)
  | record {input input₁ : TextStream} {loaded : Accounts} {next : UInt32}
      {out : TextStream × Accounts × UInt32} {userName password : StdString} {userId elo : UInt32}
      (hread : readRecord input = (some (userName, password, userId, elo), input₁))
      (hvalid : isValidInput userName password = true ∧ userId ≠ 0) (hname : userName ∉ loaded)
      (hrest : Loads input₁
        (loaded.insert userName
          { account_ := { userId_ := userId, userName_ := userName, elo_ := elo }
            password_ := password
            valid := hvalid.1
            userId_ne_zero := hvalid.2 })
        (nextAfter next userId) out) :
      Loads input loaded next out

theorem loads_of_loadLoop {input : TextStream} {loaded : Accounts} {next : UInt32}
    {out : TextStream × Accounts × UInt32} (h : loadLoop input loaded next = some out) :
    Loads input loaded next out := by
  -- every record that is read leaves less of the file
  induction hlen : input.rest.length using Nat.strong_induction_on generalizing input loaded next with
  | _ n ih =>
    unfold loadLoop at h
    split at h
    · rename_i hread
      obtain rfl := Option.some.inj h
      exact .done hread
    · rename_i userName password userId elo input₁ hread
      split at h
      · rename_i hvalid
        split at h
        · cases h
        · rename_i hname
          exact .record hread hvalid hname (ih _ (hlen ▸ readRecord_length_lt hread) h rfl)
      · cases h

/-- Whatever the file says, records are loaded under their names and the counter is right. -/
theorem Loads.spec {input : TextStream} {loaded : Accounts} {next : UInt32}
    {out : TextStream × Accounts × UInt32} (h : Loads input loaded next out)
    (hkeyed : ∀ name record, loaded.lookup name = some record → record.account_.userName_ = name)
    (hnext : NextId (IdIn loaded) next) :
    (∀ name record, out.2.1.lookup name = some record → record.account_.userName_ = name) ∧
      NextId (IdIn out.2.1) out.2.2 := by
  induction h with
  | done _ => exact ⟨hkeyed, hnext⟩
  | @record _ _ loaded _ _ userName password userId elo _ hvalid hname _ ih =>
    have hids := idIn_insert (AList.lookup_eq_none.mpr hname)
      { account_ := { userId_ := userId, userName_ := userName, elo_ := elo }
        password_ := password
        valid := hvalid.1
        userId_ne_zero := hvalid.2 }
    refine ih (fun name record hrec => ?_) ((hnext.nextAfter userId).congr hids)
    rw [lookup_insert] at hrec
    split at hrec
    · rename_i heq
      obtain rfl := Option.some.inj hrec
      exact heq.symm
    · exact hkeyed name record hrec

/-- A file that `load` accepts is missing, or the loop gets through it. -/
theorem load_cases {repo : AccountRepository} {file : Option (List UInt8)}
    (h : load { file_ := file } = (true, repo)) :
    file = none ∧ repo.accounts_ = ∅ ∧ repo.nextUserId_ = 1 ∨
      ∃ text out, file = some text ∧ Loads { rest := text } ∅ 1 out ∧
        repo.accounts_ = out.2.1 ∧ repo.nextUserId_ = out.2.2 := by
  unfold load at h
  split at h
  · rename_i hfile
    obtain rfl : _ = repo := congrArg Prod.snd h
    exact Or.inl ⟨hfile, rfl, rfl⟩
  · rename_i text hfile
    split at h
    · cases h
    · rename_i hloop
      split at h
      · cases h
      · obtain rfl : _ = repo := congrArg Prod.snd h
        exact Or.inr ⟨text, _, hfile, loads_of_loadLoop hloop, rfl, rfl⟩

theorem load_spec {repo : AccountRepository} (file : Option (List UInt8))
    (h : load { file_ := file } = (true, repo)) :
    (∀ name record, repo.accounts_.lookup name = some record → record.account_.userName_ = name) ∧
      NextId (IdIn repo.accounts_) repo.nextUserId_ := by
  rcases load_cases h with ⟨-, haccounts, hnext⟩ | ⟨text, out, -, hloads, haccounts, hnext⟩
  · rw [haccounts, hnext]
    exact ⟨by simp, nextId_empty⟩
  · rw [haccounts, hnext]
    exact hloads.spec (by simp) nextId_empty

end AccountRepository

end ArenaGame
