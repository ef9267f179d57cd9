import ArenaGame.Server.Equiv.AccountRepository

/-!
# All-or-nothing operations of the account repository

Each operation either leaves the repository as it was (`Unchanged`) or does exactly what it names
(`Registered`, `Updated`).  `Durable` is the invariant of runs that start without a file: what is in
memory is what `load` reads back from the file.  `durability` puts this together for every run of
registrations, ELO updates and restarts.
-/

namespace ArenaGame.AccountRepository

variable {repo repo' : AccountRepository} {io : SaveIO}

/-! ### What one operation does -/

/-- The accounts, the counter and the file are as before. -/
structure Unchanged (repo repo' : AccountRepository) : Prop where
  file : repo'.file_ = repo.file_
  next : repo'.nextUserId_ = repo.nextUserId_
  lookup : ∀ name, repo'.accounts_.lookup name = repo.accounts_.lookup name

theorem Unchanged.refl (repo : AccountRepository) : Unchanged repo repo :=
  ⟨rfl, rfl, fun _ => rfl⟩

/-- The file holds one line for each account, in some order. -/
def Written (repo : AccountRepository) : Prop :=
  ∃ entries : List AccountEntry, entries.Perm repo.accounts_.entries ∧
    repo.file_ = some (entries.flatMap fun entry => recordLine entry.2)

theorem save_cases (repo : AccountRepository) (io : SaveIO) :
    repo.save io = (false, repo) ∨
      repo.save io = (true, { repo with
        file_ := some ((io.order repo.accounts_.entries).flatMap fun entry =>
          recordLine entry.2) }) := by
  simp only [save]
  split_ifs
  · exact Or.inl rfl
  · exact Or.inl rfl
  · exact Or.inl rfl
  · exact Or.inr rfl

theorem save_fst (repo : AccountRepository) (io : SaveIO) : (repo.save io).1 = io.succeeds := by
  unfold SaveIO.succeeds
  cases ho : io.opened <;> cases hg : io.good <;> cases hr : io.renamed <;> simp [save, ho, hg, hr]

/-- One new account is stored, in memory and in the file. -/
structure Registered (repo : AccountRepository) (userName password : StdString)
    (account : Account) (repo' : AccountRepository) : Prop where
  valid : isValidInput userName password = true
  fresh : repo.accounts_.lookup userName = none
  next_ne_zero : repo.nextUserId_ ≠ 0
  account_eq : account = { userId_ := repo.nextUserId_, userName_ := userName, elo_ := 1000 }
  lookup : ∃ record : AccountRecord, record.account_ = account ∧ record.password_ = password ∧
    ∀ name, repo'.accounts_.lookup name =
      if name = userName then some record else repo.accounts_.lookup name
  next : repo'.nextUserId_ = repo.nextUserId_ + 1
  written : Written repo'

theorem register_spec (repo : AccountRepository) (io : SaveIO) (userName password : StdString)
    (outAccount : Account) :
    let (result, account, repo') := repo.Register io userName password outAccount
    (result ≠ .kOk → account = outAccount ∧ Unchanged repo repo') ∧
      (result = .kOk → Registered repo userName password account repo') := by
  simp only [Register]
  split
  · rename_i hvalid
    split
    · exact ⟨fun _ => ⟨rfl, .refl repo⟩, nofun⟩
    · rename_i hname
      have hnone := AList.lookup_eq_none.mpr hname
      split
      · exact ⟨fun _ => ⟨rfl, .refl repo⟩, nofun⟩
      · rename_i hnext
        let record : AccountRecord :=
          { account_ := { userId_ := repo.nextUserId_, userName_ := userName, elo_ := 1000 }
            password_ := password
            valid := hvalid
            userId_ne_zero := hnext }
        rcases save_cases { repo with accounts_ := repo.accounts_.insert userName record } io
          with hsave | hsave
        · -- the new entry is erased again
          rw [hsave]
          simp only [Bool.not_false, if_true]
          refine ⟨fun _ => ⟨trivial, rfl, rfl, fun name => ?_⟩, nofun⟩
          rw [lookup_erase, lookup_insert]
          by_cases h : name = userName
          · rw [if_pos h, h, hnone]
          · rw [if_neg h, if_neg h]
        · rw [hsave]
          simp only [Bool.not_true, Bool.false_eq_true, if_false]
          refine ⟨fun h => absurd rfl h, fun _ => ⟨hvalid, hnone, hnext, rfl, ⟨record, rfl, rfl,
            fun name => lookup_insert _ _ _ _⟩, ?_, ⟨_, io.order_perm _, rfl⟩⟩⟩
          simp only
          split
          · rename_i hmax
            rw [hmax]
            rfl
          · rfl
  · exact ⟨fun _ => ⟨rfl, .refl repo⟩, nofun⟩

/-- The record of a user with the ELO that the pair of a settled battle gives it. -/
def settle (firstUserId firstElo secondUserId secondElo : UInt32) (record : AccountRecord) :
    AccountRecord :=
  if record.account_.userId_ = firstUserId then record.withElo firstElo
  else if record.account_.userId_ = secondUserId then record.withElo secondElo
  else record

/-- The ELO of exactly two users is replaced, in memory and in the file. -/
structure Updated (repo : AccountRepository) (firstUserId firstElo secondUserId secondElo : UInt32)
    (repo' : AccountRepository) : Prop where
  ne : firstUserId ≠ secondUserId
  first : IdIn repo.accounts_ firstUserId
  second : IdIn repo.accounts_ secondUserId
  lookup : ∀ name, repo'.accounts_.lookup name =
    (repo.accounts_.lookup name).map (settle firstUserId firstElo secondUserId secondElo)
  next : repo'.nextUserId_ = repo.nextUserId_
  written : Written repo'

/-- No two accounts have the same user id. -/
def UniqueIds (accounts : Accounts) : Prop :=
  ∀ {name name' record record'}, accounts.lookup name = some record →
    accounts.lookup name' = some record' →
    record.account_.userId_ = record'.account_.userId_ → name = name'

/-- The names that the loop of `updateEloPair` finds belong to the two users. -/
theorem findRecords_spec (entries : List AccountEntry) (u v : UInt32) :
    (∀ name ∈ (findRecords entries u v).1, ∃ record, ⟨name, record⟩ ∈ entries ∧
      record.account_.userId_ = u) ∧
    (∀ name ∈ (findRecords entries u v).2, ∃ record, ⟨name, record⟩ ∈ entries ∧
      record.account_.userId_ = v) := by
  have hfold : ∀ (l : List AccountEntry) (found : Option StdString × Option StdString),
      (∀ name ∈ found.1, ∃ record, ⟨name, record⟩ ∈ entries ∧ record.account_.userId_ = u) →
      (∀ name ∈ found.2, ∃ record, ⟨name, record⟩ ∈ entries ∧ record.account_.userId_ = v) →
      (∀ e ∈ l, e ∈ entries) →
      let result := l.foldl (fun (found : Option StdString × Option StdString) entry =>
        if entry.2.account_.userId_ = u then (some entry.1, found.2)
        else if entry.2.account_.userId_ = v then (found.1, some entry.1) else found) found
      (∀ name ∈ result.1, ∃ record, ⟨name, record⟩ ∈ entries ∧ record.account_.userId_ = u) ∧
        (∀ name ∈ result.2, ∃ record, ⟨name, record⟩ ∈ entries ∧ record.account_.userId_ = v) := by
    intro l
    -- on the entries that are left, for whatever was found before them
    induction l with
    | nil => exact fun found h₁ h₂ _ => ⟨h₁, h₂⟩
    | cons e l ih =>
      intro found h₁ h₂ hl
      have he := hl e List.mem_cons_self
      have hl' : ∀ e' ∈ l, e' ∈ entries := fun e' he' => hl e' (List.mem_cons_of_mem _ he')
      rw [List.foldl_cons]
      split
      · rename_i hu
        refine ih _ (fun name hname => ?_) h₂ hl'
        obtain rfl : e.1 = name := by simpa using hname
        exact ⟨e.2, he, hu⟩
      · split
        · rename_i hv
          refine ih _ h₁ (fun name hname => ?_) hl'
          obtain rfl : e.1 = name := by simpa using hname
          exact ⟨e.2, he, hv⟩
        · exact ih _ h₁ h₂ hl'
  exact hfold entries (none, none) (by simp) (by simp) fun _ h => h

/-- The loop finds the two users if they have accounts. -/
theorem findRecords_isSome (entries : List AccountEntry) {u v : UInt32} (hne : u ≠ v) :
    ((∃ entry ∈ entries, entry.2.account_.userId_ = u) → (findRecords entries u v).1.isSome) ∧
      ((∃ entry ∈ entries, entry.2.account_.userId_ = v) →
        (findRecords entries u v).2.isSome) := by
  have hfold : ∀ (l : List AccountEntry) (found : Option StdString × Option StdString),
      let result := l.foldl (fun (found : Option StdString × Option StdString) entry =>
        if entry.2.account_.userId_ = u then (some entry.1, found.2)
        else if entry.2.account_.userId_ = v then (found.1, some entry.1) else found) found
      ((found.1.isSome ∨ ∃ entry ∈ l, entry.2.account_.userId_ = u) → result.1.isSome) ∧
        ((found.2.isSome ∨ ∃ entry ∈ l, entry.2.account_.userId_ = v) → result.2.isSome) := by
    intro l
    -- what was found is only ever written over by another find
    induction l with
    | nil => simp
    | cons e l ih =>
      intro found
      rw [List.foldl_cons]
      split
      · rename_i hu
        refine ⟨fun _ => (ih _).1 (Or.inl rfl), fun h => (ih _).2 (h.imp id ?_)⟩
        rintro ⟨entry, hentry, hv⟩
        rcases List.mem_cons.mp hentry with rfl | hmem
        · exact absurd (hu.symm.trans hv) hne
        · exact ⟨entry, hmem, hv⟩
      · rename_i hu
        have hfirst : (∃ entry ∈ e :: l, entry.2.account_.userId_ = u) →
            ∃ entry ∈ l, entry.2.account_.userId_ = u := by
          rintro ⟨entry, hentry, heq⟩
          rcases List.mem_cons.mp hentry with rfl | hmem
          · exact absurd heq hu
          · exact ⟨entry, hmem, heq⟩
        split
        · exact ⟨fun h => (ih _).1 (h.imp id hfirst), fun _ => (ih _).2 (Or.inl rfl)⟩
        · rename_i hv
          refine ⟨fun h => (ih _).1 (h.imp id hfirst), fun h => (ih _).2 (h.imp id ?_)⟩
          rintro ⟨entry, hentry, heq⟩
          rcases List.mem_cons.mp hentry with rfl | hmem
          · exact absurd heq hv
          · exact ⟨entry, hmem, heq⟩
  exact ⟨fun h => (hfold entries (none, none)).1 (Or.inr h),
    fun h => (hfold entries (none, none)).2 (Or.inr h)⟩

variable (io) in
/-- The ELO of two users with accounts is replaced if and only if `save` succeeds. -/
theorem updateEloPair_fst {repo : AccountRepository} {u v : UInt32} (e f : UInt32) (hu : u ≠ 0)
    (hv : v ≠ 0) (hne : u ≠ v) (hidu : IdIn repo.accounts_ u) (hidv : IdIn repo.accounts_ v) :
    (repo.updateEloPair io u e v f).1 = io.succeeds := by
  have hfound : ∀ {w}, IdIn repo.accounts_ w →
      ∃ entry ∈ io.order repo.accounts_.entries, entry.2.account_.userId_ = w := by
    rintro w ⟨name, record, hrec, hid⟩
    exact ⟨⟨name, record⟩, (io.order_perm _).mem_iff.mpr (AList.mem_lookup_iff.mp hrec), hid⟩
  obtain ⟨hfirst, hsecond⟩ := findRecords_isSome (io.order repo.accounts_.entries) hne
  obtain ⟨first, h₁⟩ := Option.isSome_iff_exists.mp (hfirst (hfound hidu))
  obtain ⟨second, h₂⟩ := Option.isSome_iff_exists.mp (hsecond (hfound hidv))
  have hpair : findRecords (io.order repo.accounts_.entries) u v = (some first, some second) :=
    Prod.ext h₁ h₂
  simp only [updateEloPair, hu, hv, hne, or_self, if_false, hpair]
  split
  · rename_i hsave
    rw [save_fst] at hsave
    exact hsave.symm
  · rename_i hsave
    rw [save_fst, Bool.not_eq_true] at hsave
    exact hsave.symm

theorem withElo_self (record : AccountRecord) : record.withElo record.account_.elo_ = record :=
  AccountRecord.ext rfl rfl

theorem updateEloPair_spec (repo : AccountRepository) (io : SaveIO) (u e v f : UInt32)
    (hunique : UniqueIds repo.accounts_) :
    let (ok, repo') := repo.updateEloPair io u e v f
    (ok = false → Unchanged repo repo') ∧ (ok = true → Updated repo u e v f repo') := by
  simp only [updateEloPair]
  split
  · exact ⟨fun _ => .refl repo, nofun⟩
  · rename_i hids
    push Not at hids
    split
    · rename_i first second hfind
      obtain ⟨hfirst, hsecond⟩ := findRecords_spec (io.order repo.accounts_.entries) u v
      rw [hfind] at hfirst hsecond
      have hlookup : ∀ {name : StdString} {record : AccountRecord},
          (⟨name, record⟩ : AccountEntry) ∈ io.order repo.accounts_.entries →
          repo.accounts_.lookup name = some record := fun hmem =>
        AList.mem_lookup_iff.mpr ((io.order_perm _).mem_iff.mp hmem)
      obtain ⟨ru, hru, hu⟩ := hfirst first rfl
      obtain ⟨rv, hrv, hv⟩ := hsecond second rfl
      have hlu := hlookup hru
      have hlv := hlookup hrv
      have hne : second ≠ first := by
        rintro rfl
        rw [hlu, Option.some.injEq] at hlv
        exact hids.2.2 (by rw [← hu, ← hv, hlv])
      -- what is found under each name after the two assignments
      have hset : ∀ (accounts : Accounts) (x y : UInt32) (name : StdString),
          (setElo (setElo accounts first x) second y).lookup name =
            if name = second then (accounts.lookup second).map (·.withElo y)
            else if name = first then (accounts.lookup first).map (·.withElo x)
            else accounts.lookup name := by
        intro accounts x y name
        rw [lookup_setElo, lookup_setElo, if_neg hne, lookup_setElo]
      rcases save_cases { repo with
        accounts_ := setElo (setElo repo.accounts_ first e) second f } io with hsave | hsave
      · rw [hsave]
        simp only [Bool.false_eq_true, if_false, hlu, hlv, Option.map_some, Option.getD_some]
        refine ⟨fun _ => ⟨rfl, rfl, fun name => ?_⟩, nofun⟩
        rw [hset, hset, hset, hset, if_pos rfl, if_neg hne.symm, if_pos rfl, hlu, hlv]
        split
        · rename_i hname
          rw [hname, hlv]
          exact congrArg some (withElo_self rv)
        · split
          · rename_i hname
            rw [hname, hlu]
            exact congrArg some (withElo_self ru)
          · rfl
      · rw [hsave]
        simp only [if_true]
        refine ⟨nofun, fun _ => ⟨hids.2.2, ⟨first, ru, hlu, hu⟩,
          ⟨second, rv, hlv, hv⟩, fun name => ?_, rfl, ⟨_, io.order_perm _, rfl⟩⟩⟩
        rw [hset]
        split
        · rename_i hname
          rw [hname, hlv, Option.map_some, Option.map_some, settle, hv,
            if_neg (Ne.symm hids.2.2), if_pos rfl]
        · rename_i hname₂
          split
          · rename_i hname₁
            rw [hname₁, hlu, Option.map_some, Option.map_some, settle, if_pos hu]
          · rename_i hname₁
            -- a third account is of neither user
            cases hr : repo.accounts_.lookup name with
            | none => rfl
            | some r =>
              rw [Option.map_some, settle, if_neg, if_neg]
              · exact fun h => hname₂ (hunique hr hlv (h.trans hv.symm))
              · exact fun h => hname₁ (hunique hr hlu (h.trans hu.symm))
    · exact ⟨fun _ => .refl repo, nofun⟩

/-! ### The invariant -/

/-- Accounts are stored under their names with unique ids, and the counter is right. -/
structure Sound (repo : AccountRepository) : Prop where
  keyed : ∀ name record, repo.accounts_.lookup name = some record →
    record.account_.userName_ = name
  unique : UniqueIds repo.accounts_
  next : NextId (IdIn repo.accounts_) repo.nextUserId_

/-- What is in memory is what the file says. -/
structure Durable (repo : AccountRepository) : Prop extends Sound repo where
  stored : ∃ records, Represents records repo.accounts_ ∧ FileOf records repo.file_

theorem durable_empty : Durable {} := by
  refine ⟨⟨by simp, ?_, nextId_empty⟩, [], ⟨.nil, by simp⟩, rfl⟩
  intro name name' record record' h
  simp at h

theorem Sound.unchanged (h : Sound repo) (hsame : Unchanged repo repo') : Sound repo' := by
  refine ⟨fun name record hr => h.keyed name record (by rw [← hsame.lookup, hr]), ?_, ?_⟩
  · intro name name' record record' hr hr' hid
    rw [hsame.lookup] at hr hr'
    exact h.unique hr hr' hid
  · rw [hsame.next]
    exact h.next.congr fun i => by simp only [IdIn, hsame.lookup]

theorem Durable.unchanged (h : Durable repo) (hsame : Unchanged repo repo') : Durable repo' := by
  obtain ⟨records, hrep, hfile⟩ := h.stored
  exact ⟨h.toSound.unchanged hsame, records, represents_congr hrep hsame.lookup,
    by rw [hsame.file]; exact hfile⟩

theorem Written.stored (h : Written repo) (hkeyed : ∀ name record,
    repo.accounts_.lookup name = some record → record.account_.userName_ = name) :
    ∃ records, Represents records repo.accounts_ ∧ FileOf records repo.file_ := by
  obtain ⟨entries, hperm, hfile⟩ := h
  refine ⟨entries.map Sigma.snd, represents_of_perm hperm hkeyed, ?_⟩
  rw [hfile, FileOf, List.flatMap_map]

theorem Sound.registered (h : Sound repo) {userName password : StdString} {account : Account}
    (hreg : Registered repo userName password account repo') : Sound repo' := by
  obtain ⟨record, haccount, -, hlookup⟩ := hreg.lookup
  have hid : record.account_.userId_ = repo.nextUserId_ := by rw [haccount, hreg.account_eq]
  have hkeyed : ∀ name r, repo'.accounts_.lookup name = some r → r.account_.userName_ = name := by
    intro name r hr
    rw [hlookup] at hr
    split at hr
    · rename_i hname
      obtain rfl := Option.some.inj hr
      rw [haccount, hreg.account_eq, hname]
    · exact h.keyed name r hr
  -- the new id is larger than all others
  have hnew : ∀ {name r}, repo.accounts_.lookup name = some r →
      r.account_.userId_ ≠ record.account_.userId_ := by
    intro name r hr heq
    have hlt := h.next.above hreg.next_ne_zero _ ⟨name, r, hr, rfl⟩
    rw [heq, hid] at hlt
    exact absurd hlt (UInt32.lt_irrefl _)
  refine ⟨hkeyed, ?_, ?_⟩
  · intro name name' r r' hr hr' heq
    rw [hlookup] at hr hr'
    split at hr
    · rename_i hname
      obtain rfl := Option.some.inj hr
      split at hr'
      · rename_i hname'
        rw [hname, hname']
      · exact absurd heq.symm (hnew hr')
    · split at hr'
      · obtain rfl := Option.some.inj hr'
        exact absurd heq (hnew hr)
      · exact h.unique hr hr' heq
  · have hafter : repo'.nextUserId_ = nextAfter repo.nextUserId_ repo.nextUserId_ := by
      rw [hreg.next, nextAfter]
      split
      · rename_i hmax
        rw [hmax]
        rfl
      · rw [if_pos ⟨hreg.next_ne_zero, UInt32.le_refl _⟩]
    rw [hafter]
    refine (h.next.nextAfter repo.nextUserId_).congr fun i => ?_
    constructor
    · rintro (rfl | ⟨name, r, hr, rfl⟩)
      · exact ⟨userName, record, by rw [hlookup, if_pos rfl], hid⟩
      · refine ⟨name, r, ?_, rfl⟩
        rw [hlookup, if_neg, hr]
        rintro rfl
        simp [hreg.fresh] at hr
    · rintro ⟨name, r, hr, rfl⟩
      rw [hlookup] at hr
      split at hr
      · obtain rfl := Option.some.inj hr
        exact Or.inl hid
      · exact Or.inr ⟨name, r, hr, rfl⟩

theorem Durable.registered (h : Durable repo) {userName password : StdString} {account : Account}
    (hreg : Registered repo userName password account repo') : Durable repo' :=
  have hsound := h.toSound.registered hreg
  ⟨hsound, hreg.written.stored hsound.keyed⟩

theorem settle_account (u e v f : UInt32) (record : AccountRecord) :
    (settle u e v f record).account_.userId_ = record.account_.userId_ ∧
      (settle u e v f record).account_.userName_ = record.account_.userName_ ∧
      (settle u e v f record).password_ = record.password_ := by
  unfold settle
  split
  · exact ⟨rfl, rfl, rfl⟩
  · split <;> exact ⟨rfl, rfl, rfl⟩

theorem Sound.updated (h : Sound repo) {u e v f : UInt32} (hup : Updated repo u e v f repo') :
    Sound repo' := by
  have hold : ∀ {name r'}, repo'.accounts_.lookup name = some r' →
      ∃ r, repo.accounts_.lookup name = some r ∧ settle u e v f r = r' := by
    intro name r' hr
    rw [hup.lookup, Option.map_eq_some_iff] at hr
    exact hr
  have hkeyed : ∀ name r, repo'.accounts_.lookup name = some r → r.account_.userName_ = name := by
    intro name r' hr'
    obtain ⟨r, hr, rfl⟩ := hold hr'
    rw [(settle_account u e v f r).2.1, h.keyed name r hr]
  refine ⟨hkeyed, ?_, ?_⟩
  · intro name name' r r' hr hr' heq
    obtain ⟨r₁, hr₁, rfl⟩ := hold hr
    obtain ⟨r₂, hr₂, rfl⟩ := hold hr'
    rw [(settle_account u e v f r₁).1, (settle_account u e v f r₂).1] at heq
    exact h.unique hr₁ hr₂ heq
  · rw [hup.next]
    refine h.next.congr fun i => ?_
    constructor
    · rintro ⟨name, r, hr, rfl⟩
      refine ⟨name, settle u e v f r, ?_, (settle_account u e v f r).1⟩
      rw [hup.lookup, hr, Option.map_some]
    · rintro ⟨name, r', hr', rfl⟩
      obtain ⟨r, hr, rfl⟩ := hold hr'
      exact ⟨name, r, hr, (settle_account u e v f r).1.symm⟩

theorem Durable.updated (h : Durable repo) {u e v f : UInt32} (hup : Updated repo u e v f repo') :
    Durable repo' :=
  have hsound := h.toSound.updated hup
  ⟨hsound, hup.written.stored hsound.keyed⟩

/-- A restart succeeds and restores everything. -/
theorem Durable.restart (h : Durable repo) :
    (repo.restart.load).1 = true ∧ Unchanged repo (repo.restart.load).2 := by
  obtain ⟨records, hrep, hfile⟩ := h.stored
  obtain ⟨accounts', hload, hsame⟩ := load_file hrep h.next hfile
  rw [AccountRepository.restart, hload]
  exact ⟨rfl, rfl, rfl, hsame⟩

/-! ### Runs -/

inductive Event
  | register (io : SaveIO) (userName password : StdString)
  | updateEloPair (io : SaveIO) (firstUserId firstElo secondUserId secondElo : UInt32)
  | restart

/-- One event; a restart is a new repository that loads the file. -/
def Event.apply (repo : AccountRepository) : Event → AccountRepository
  | register io userName password => (repo.Register io userName password {}).2.2
  | updateEloPair io u e v f => (repo.updateEloPair io u e v f).2
  | restart => repo.restart.load.2

def run (repo : AccountRepository) (events : List Event) : AccountRepository :=
  events.foldl Event.apply repo

theorem Durable.apply (h : Durable repo) (event : Event) : Durable (event.apply repo) := by
  cases event with
  | register io userName password =>
    have hspec := register_spec repo io userName password {}
    rcases hreg : repo.Register io userName password {} with ⟨result, account, repo'⟩
    rw [hreg] at hspec
    simp only [Event.apply, hreg]
    by_cases hok : result = .kOk
    · exact h.registered (hspec.2 hok)
    · exact h.unchanged (hspec.1 hok).2
  | updateEloPair io u e v f =>
    have hspec := updateEloPair_spec repo io u e v f h.unique
    rcases hup : repo.updateEloPair io u e v f with ⟨ok, repo'⟩
    rw [hup] at hspec
    simp only [Event.apply, hup]
    cases ok with
    | true => exact h.updated (hspec.2 rfl)
    | false => exact h.unchanged (hspec.1 rfl)
  | restart => exact h.unchanged h.restart.2

theorem Durable.run (h : Durable repo) (events : List Event) : Durable (run repo events) := by
  induction events generalizing repo with
  | nil => exact h
  | cons event events ih => exact ih (h.apply event)

/-! ### The last ELO of an account -/

/-- The ELO that one event writes for a user, if it does, and the old one otherwise. -/
def Event.writtenElo (repo : AccountRepository) (userId elo : UInt32) : Event → UInt32
  | updateEloPair io u e v f =>
    if (repo.updateEloPair io u e v f).1 then
      if userId = u then e else if userId = v then f else elo
    else elo
  | _ => elo

/-- The ELO last written successfully for a user, starting from `elo`. -/
def lastElo (repo : AccountRepository) (userId elo : UInt32) : List Event → UInt32
  | [] => elo
  | event :: events =>
    lastElo (event.apply repo) userId (event.writtenElo repo userId elo) events

/-- A stored account: its password and its data. -/
def Stored (repo : AccountRepository) (password : StdString) (account : Account) : Prop :=
  ∃ record, repo.accounts_.lookup account.userName_ = some record ∧
    record.account_ = account ∧ record.password_ = password

theorem Stored.of_unchanged {password : StdString} {account : Account}
    (h : Stored repo password account) (hsame : Unchanged repo repo') :
    Stored repo' password account := by
  obtain ⟨record, hr, haccount, hpassword⟩ := h
  exact ⟨record, by rw [hsame.lookup, hr], haccount, hpassword⟩

/-- One event keeps a stored account, up to its ELO. -/
theorem Stored.apply (hd : Durable repo) {password : StdString} {account : Account}
    (h : Stored repo password account) (event : Event) :
    Stored (event.apply repo) password
      { account with elo_ := event.writtenElo repo account.userId_ account.elo_ } := by
  cases event with
  | register io userName password' =>
    have hspec := register_spec repo io userName password' {}
    rcases hreg : repo.Register io userName password' {} with ⟨result, account', repo'⟩
    rw [hreg] at hspec
    simp only [Event.apply, Event.writtenElo, hreg]
    by_cases hok : result = .kOk
    · obtain ⟨record', -, -, hlookup⟩ := (hspec.2 hok).lookup
      obtain ⟨record, hr, haccount, hpassword⟩ := h
      refine ⟨record, ?_, haccount, hpassword⟩
      rw [hlookup, if_neg, hr]
      -- the registered name was free, so it is not the name of this account
      intro hname
      rw [hname, (hspec.2 hok).fresh] at hr
      cases hr
    · exact h.of_unchanged (hspec.1 hok).2
  | updateEloPair io u e v f =>
    have hspec := updateEloPair_spec repo io u e v f hd.unique
    rcases hup : repo.updateEloPair io u e v f with ⟨ok, repo'⟩
    rw [hup] at hspec
    simp only [Event.apply, Event.writtenElo, hup]
    cases ok with
    | true =>
      obtain ⟨record, hr, rfl, hpassword⟩ := h
      refine ⟨settle u e v f record, ?_, ?_, by rw [(settle_account u e v f record).2.2, hpassword]⟩
      · rw [(hspec.2 rfl).lookup, hr, Option.map_some]
      · simp only [if_true, settle]
        split
        · rfl
        · split <;> rfl
    | false => exact h.of_unchanged (hspec.1 rfl)
  | restart => exact h.of_unchanged hd.restart.2

theorem Stored.run (hd : Durable repo) {password : StdString} {account : Account}
    (h : Stored repo password account) (events : List Event) :
    Stored (run repo events) password
      { account with elo_ := lastElo repo account.userId_ account.elo_ events } := by
  induction events generalizing repo account with
  | nil => exact h
  | cons event events ih => exact ih (hd.apply event) (h.apply hd event)

theorem Stored.verify {password : StdString} {account : Account}
    (h : Stored repo password account) (outAccount : Account) :
    repo.Verify account.userName_ password outAccount = (.kOk, account) := by
  obtain ⟨record, hr, rfl, rfl⟩ := h
  simp only [Verify, record.valid, Bool.not_true, Bool.false_eq_true, if_false, hr,
    ne_eq, not_true_eq_false]

/-- **Durability and all-or-nothing effect.**  After any run from an absent file: a restart
succeeds and restores accounts and counter; a registration and an ELO update that do not succeed
change nothing, and one that succeeds changes exactly what it names, in memory and for the next
restart; and an account that a registration acknowledged is verified after any further events, with
the same user id and the last ELO written for it. -/
theorem durability (events : List Event) :
    let repo := run {} events
    (repo.restart.load.1 = true ∧ Unchanged repo repo.restart.load.2) ∧
    (∀ io userName password outAccount,
      let (result, account, repo') := repo.Register io userName password outAccount
      (result ≠ .kOk → account = outAccount ∧ Unchanged repo repo') ∧
      (result = .kOk → Registered repo userName password account repo' ∧
        Unchanged repo' repo'.restart.load.2 ∧
        ∀ events' outAccount',
          (run repo' events').Verify userName password outAccount' =
            (.kOk, { account with elo_ := lastElo repo' account.userId_ account.elo_ events' }))) ∧
    (∀ io u e v f,
      let (ok, repo') := repo.updateEloPair io u e v f
      (ok = false → Unchanged repo repo') ∧
      (ok = true → Updated repo u e v f repo' ∧ Unchanged repo' repo'.restart.load.2)) := by
  intro repo
  -- every run keeps the file and the table equal, so a restart brings back the table
  have hd : Durable repo := durable_empty.run events
  refine ⟨hd.restart, fun io userName password outAccount => ?_, fun io u e v f => ?_⟩
  · have hspec := register_spec repo io userName password outAccount
    rcases hreg : repo.Register io userName password outAccount with ⟨result, account, repo'⟩
    rw [hreg] at hspec
    refine ⟨hspec.1, fun hok => ?_⟩
    have hregistered := hspec.2 hok
    have hd' := hd.registered hregistered
    refine ⟨hregistered, hd'.restart.2, fun events' outAccount' => ?_⟩
    obtain ⟨record, haccount, hpassword, hlookup⟩ := hregistered.lookup
    have hname : account.userName_ = userName := by rw [hregistered.account_eq]
    have hstored : Stored repo' password account :=
      ⟨record, by rw [hlookup, if_pos hname], haccount, hpassword⟩
    rw [← hname]
    exact (hstored.run hd' events').verify outAccount'
  · have hspec := updateEloPair_spec repo io u e v f hd.unique
    rcases hup : repo.updateEloPair io u e v f with ⟨ok, repo'⟩
    rw [hup] at hspec
    exact ⟨hspec.1, fun hok => ⟨hspec.2 hok, (hd.updated (hspec.2 hok)).restart.2⟩⟩

end ArenaGame.AccountRepository
