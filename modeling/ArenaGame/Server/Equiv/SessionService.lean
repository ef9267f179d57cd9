import ArenaGame.Server.SessionService

/-!
# What the session service does

Sessions are looked at in two ways: by connection, and by user (`sessionOf`).  The two maps of the
service being inverse, each operation is described once for each of the two.
-/

namespace ArenaGame.SessionService

variable {s : SessionService}

/-- The session of a user who is online. -/
def sessionOf (s : SessionService) (userId : UInt32) : Option PlayerSession :=
  s.findByConnection (s.findConnectionByUserId userId)

@[simp] theorem findByConnection_zero : s.findByConnection 0 = none := by
  cases h : s.findByConnection 0 with
  | none => rfl
  | some t => exact absurd rfl (s.connection_ne_zero h)

theorem findConnectionByUserId_of_session {c : UInt64} {t : PlayerSession}
    (h : s.findByConnection c = some t) : s.findConnectionByUserId t.userId_ = c := by
  rw [findConnectionByUserId, s.connection_of_session h]
  rfl

theorem sessionOf_of_session {c : UInt64} {t : PlayerSession}
    (h : s.findByConnection c = some t) : s.sessionOf t.userId_ = some t := by
  rw [sessionOf, findConnectionByUserId_of_session h, h]

theorem sessionOf_eq_some_iff {u : UInt32} {t : PlayerSession} :
    s.sessionOf u = some t ↔ ∃ c, s.findByConnection c = some t ∧ t.userId_ = u := by
  constructor
  · intro h
    refine ⟨_, h, ?_⟩
    cases hc : s.connectionByUserId_.lookup u with
    | none =>
      rw [sessionOf, findConnectionByUserId, hc] at h
      simp at h
    | some c =>
      obtain ⟨t', ht', hu⟩ := s.session_of_connection hc
      rw [sessionOf, findConnectionByUserId, hc] at h
      obtain rfl : t' = t := Option.some.inj (ht'.symm.trans h)
      exact hu
  · rintro ⟨c, h, rfl⟩
    exact sessionOf_of_session h

theorem sessionOf_userId {u : UInt32} {t : PlayerSession} (h : s.sessionOf u = some t) :
    t.userId_ = u := by
  obtain ⟨-, -, hu⟩ := sessionOf_eq_some_iff.mp h
  exact hu

theorem ne_zero_of_sessionOf {u : UInt32} {t : PlayerSession} (h : s.sessionOf u = some t) :
    u ≠ 0 := by
  obtain ⟨c, hc, rfl⟩ := sessionOf_eq_some_iff.mp h
  exact s.user_ne_zero hc

theorem sessionOf_of_connection {u : UInt32} {c : UInt64} (hc : s.findConnectionByUserId u = c)
    (h : c ≠ 0) : ∃ t, s.findByConnection c = some t ∧ t.userId_ = u := by
  unfold findConnectionByUserId at hc
  cases hu : s.connectionByUserId_.lookup u with
  | none => exact absurd (by simpa [hu] using hc.symm) h
  | some c' =>
    obtain rfl : c' = c := by simpa [hu] using hc
    exact s.session_of_connection hu

/-- Two connections of one user are the same. -/
theorem connection_unique {c c' : UInt64} {t t' : PlayerSession}
    (h : s.findByConnection c = some t) (h' : s.findByConnection c' = some t')
    (hu : t.userId_ = t'.userId_) : c = c' := by
  rw [← findConnectionByUserId_of_session h, hu, findConnectionByUserId_of_session h']

/-- The connections of two users who are online differ. -/
theorem connection_ne {u v : UInt32} {t t' : PlayerSession}
    (ht : s.sessionOf u = some t) (ht' : s.sessionOf v = some t') (hne : u ≠ v) :
    s.findConnectionByUserId u ≠ s.findConnectionByUserId v := by
  intro hc
  rw [sessionOf, hc] at ht
  obtain rfl : t = t' := Option.some.inj (ht.symm.trans ht')
  have hu := sessionOf_userId (by rw [sessionOf, hc]; exact ht : s.sessionOf u = some t)
  exact hne (hu.symm.trans (sessionOf_userId ht'))

theorem ext_findByConnection {s s' : SessionService}
    (h : ∀ c, s.findByConnection c = s'.findByConnection c) : s = s' := by
  have hsessions : s.sessionsByConnection_ = s'.sessionsByConnection_ := Finmap.ext_lookup h
  have hconnections : s.connectionByUserId_ = s'.connectionByUserId_ := by
    apply Finmap.ext_lookup
    intro u
    have hto : ∀ {a b : SessionService}, a.sessionsByConnection_ = b.sessionsByConnection_ →
        ∀ {c}, a.connectionByUserId_.lookup u = some c → b.connectionByUserId_.lookup u = some c := by
      intro a b hab c hc
      obtain ⟨t, ht, rfl⟩ := a.session_of_connection hc
      exact b.connection_of_session (hab ▸ ht)
    cases hc : s.connectionByUserId_.lookup u with
    | some c => exact (hto hsessions hc).symm
    | none =>
      cases hc' : s'.connectionByUserId_.lookup u with
      | none => rfl
      | some c => exact absurd (hto hsessions.symm hc') (by simp [hc])
  cases s
  cases s'
  simp only at hsessions hconnections
  subst hsessions hconnections
  rfl

/-! ### Assignments to a session -/

section Modify

variable {f : PlayerSession → PlayerSession} {hf : ∀ t, (f t).userId_ = t.userId_}

theorem findByConnection_modify (c c' : UInt64) :
    (s.modify c f hf).findByConnection c' =
      if c' = c then (s.findByConnection c).map f else s.findByConnection c' :=
  UnorderedMap.lookup_modify _ _ _ _

end Modify

/-! ### Marking and clearing rooms -/

/-- A session with another room id if it is a session of `u`. -/
def inRoom (u : UInt32) (roomId : UInt64) (t : PlayerSession) : PlayerSession :=
  if t.userId_ = u then { t with roomId_ := roomId } else t

theorem inRoom_of_ne {u : UInt32} (roomId : UInt64) {t : PlayerSession} (h : t.userId_ ≠ u) :
    inRoom u roomId t = t := if_neg h

theorem clearRoom_eq (u : UInt32) : s.clearRoom u = s.markInRoom u 0 := rfl

theorem findByConnection_markInRoom (u : UInt32) (roomId c : UInt64) :
    (s.markInRoom u roomId).findByConnection c = (s.findByConnection c).map (inRoom u roomId) := by
  have hother : ∀ {t}, s.findByConnection c = some t → t.userId_ ≠ u →
      (s.findByConnection c).map (inRoom u roomId) = s.findByConnection c := by
    intro t ht hu
    rw [ht, Option.map_some, inRoom, if_neg hu]
  unfold markInRoom
  simp only
  split
  · -- the user is not online, so no session is theirs
    rename_i h0
    cases ht : s.findByConnection c with
    | none => rfl
    | some t =>
      rw [← ht]
      refine (hother ht fun hu => ?_).symm
      rw [← hu, findConnectionByUserId_of_session ht] at h0
      exact s.connection_ne_zero ht h0
  · rename_i h0
    rw [setRoom, findByConnection_modify]
    by_cases hc : c = s.findConnectionByUserId u
    · rw [if_pos hc, ← hc]
      cases ht : s.findByConnection c with
      | none => rfl
      | some t =>
        obtain ⟨t', ht', hu⟩ := sessionOf_of_connection rfl h0
        rw [← hc, ht, Option.some.injEq] at ht'
        rw [Option.map_some, Option.map_some, inRoom, if_pos (ht' ▸ hu)]
    · rw [if_neg hc]
      cases ht : s.findByConnection c with
      | none => rfl
      | some t =>
        rw [← ht]
        refine (hother ht fun hu => hc ?_).symm
        rw [← hu, findConnectionByUserId_of_session ht]

@[simp] theorem findConnectionByUserId_markInRoom (u u' : UInt32) (roomId : UInt64) :
    (s.markInRoom u roomId).findConnectionByUserId u' = s.findConnectionByUserId u' := by
  unfold markInRoom
  simp only
  split
  · rfl
  · rfl

theorem sessionOf_markInRoom (u u' : UInt32) (roomId : UInt64) :
    (s.markInRoom u roomId).sessionOf u' =
      if u' = u then (s.sessionOf u).map fun t => { t with roomId_ := roomId }
      else s.sessionOf u' := by
  rw [sessionOf, findConnectionByUserId_markInRoom, findByConnection_markInRoom, ← sessionOf]
  split
  · rename_i hu
    subst hu
    cases ht : s.sessionOf u' with
    | none => rfl
    | some t => rw [Option.map_some, Option.map_some, inRoom, if_pos (sessionOf_userId ht)]
  · rename_i hu
    cases ht : s.sessionOf u' with
    | none => rfl
    | some t => rw [Option.map_some, inRoom, if_neg (by rw [sessionOf_userId ht]; exact hu)]

/-! ### Mapped sessions -/

/-- Every session is changed by `f`, which keeps the user. -/
structure Mapped (f : PlayerSession → PlayerSession) (s s' : SessionService) : Prop where
  userId_eq : ∀ t, (f t).userId_ = t.userId_
  find : ∀ c, s'.findByConnection c = (s.findByConnection c).map f

section Mapped

variable {s' s'' : SessionService} {f g : PlayerSession → PlayerSession}

theorem Mapped.congr (h : Mapped f s s') (hg : ∀ t, (g t).userId_ = t.userId_)
    (hfg : ∀ c t, s.findByConnection c = some t → f t = g t) : Mapped g s s' := by
  refine ⟨hg, fun c => ?_⟩
  rw [h.find]
  cases ht : s.findByConnection c with
  | none => rfl
  | some t => rw [Option.map_some, Option.map_some, hfg c t ht]

theorem Mapped.refl (s : SessionService) : Mapped id s s := ⟨fun _ => rfl, fun c => by simp⟩

theorem Mapped.comp (h : Mapped f s s') (h' : Mapped g s' s'') : Mapped (g ∘ f) s s'' := by
  refine ⟨fun t => by rw [Function.comp, h'.userId_eq, h.userId_eq], fun c => ?_⟩
  rw [h'.find, h.find, Option.map_map]

theorem Mapped.sessionOf (h : Mapped f s s') (u : UInt32) :
    s'.sessionOf u = (s.sessionOf u).map f := by
  apply Option.ext
  intro t
  rw [Option.map_eq_some_iff, sessionOf_eq_some_iff]
  constructor
  · rintro ⟨c, hc, rfl⟩
    rw [h.find, Option.map_eq_some_iff] at hc
    obtain ⟨t', ht', rfl⟩ := hc
    exact ⟨t', by rw [h.userId_eq]; exact sessionOf_of_session ht', rfl⟩
  · rintro ⟨t', ht', rfl⟩
    obtain ⟨c, hc, rfl⟩ := sessionOf_eq_some_iff.mp ht'
    exact ⟨c, by rw [h.find, hc]; rfl, h.userId_eq t'⟩

theorem Mapped.connection (h : Mapped f s s') {u : UInt32} {t : PlayerSession}
    (ht : s.sessionOf u = some t) :
    s'.findConnectionByUserId u = s.findConnectionByUserId u := by
  obtain ⟨c, hc, rfl⟩ := sessionOf_eq_some_iff.mp ht
  have hc' : s'.findByConnection c = some (f t) := by rw [h.find, hc]; rfl
  rw [findConnectionByUserId_of_session hc, ← h.userId_eq t,
    findConnectionByUserId_of_session hc']

theorem mapped_markInRoom (u : UInt32) (roomId : UInt64) :
    Mapped (inRoom u roomId) s (s.markInRoom u roomId) := by
  refine ⟨fun t => ?_, fun c => findByConnection_markInRoom u roomId c⟩
  unfold inRoom
  split <;> rfl

/-- A session with another ELO if it is a session of `u`. -/
def withElo (u : UInt32) (elo : UInt32) (t : PlayerSession) : PlayerSession :=
  if t.userId_ = u then { t with elo_ := elo } else t

theorem mapped_setElo {u : UInt32} {t : PlayerSession} (h : s.sessionOf u = some t)
    (elo : UInt32) : Mapped (withElo u elo) s (s.setElo (s.findConnectionByUserId u) elo) := by
  refine ⟨fun t => ?_, fun c => ?_⟩
  · unfold withElo
    split <;> rfl
  · have hc : s.findByConnection (s.findConnectionByUserId u) = some t := h
    have hu := sessionOf_userId h
    rw [setElo, findByConnection_modify]
    split
    · rename_i hcc
      subst hcc
      rw [hc, Option.map_some, Option.map_some, withElo, if_pos hu]
    · rename_i hcc
      cases ht : s.findByConnection c with
      | none => rfl
      | some t' =>
        rw [Option.map_some, withElo, if_neg]
        intro hu'
        exact hcc (by rw [← hu', findConnectionByUserId_of_session ht])

end Mapped

/-! ### Logging in and out -/

/-- `bind` refuses exactly a zero id, a connection in use and a user who is online. -/
theorem bind_fst {c : UInt64} {t : PlayerSession} :
    (s.bind c t).1 = true ↔
      c ≠ 0 ∧ t.userId_ ≠ 0 ∧ s.findByConnection c = none ∧ s.sessionOf t.userId_ = none := by
  have honline : s.sessionOf t.userId_ = none ↔ t.userId_ ∉ s.connectionByUserId_ := by
    rw [← Finmap.lookup_eq_none]
    constructor
    · intro h
      cases hc : s.connectionByUserId_.lookup t.userId_ with
      | none => rfl
      | some c' =>
        obtain ⟨t', ht', hu⟩ := s.session_of_connection hc
        exact absurd (sessionOf_eq_some_iff.mpr ⟨c', ht', hu⟩) (by simp [h])
    · intro h
      rw [sessionOf, findConnectionByUserId, h]
      simp
  rw [honline, findByConnection, Finmap.lookup_eq_none, bind]
  split
  · rename_i h
    simp only [Bool.false_eq_true, false_iff]
    tauto
  · rename_i h
    push Not at h
    simpa using h

theorem bind_snd_of_refused {c : UInt64} {t : PlayerSession} (h : (s.bind c t).1 = false) :
    (s.bind c t).2 = s := by
  unfold bind at h ⊢
  split
  · rfl
  · rename_i hn
    rw [dif_neg hn] at h
    cases h

theorem findByConnection_bind {c : UInt64} {t : PlayerSession} (h : (s.bind c t).1 = true)
    (c' : UInt64) :
    (s.bind c t).2.findByConnection c' = if c' = c then some t else s.findByConnection c' := by
  unfold bind at h ⊢
  split
  · rename_i hn
    rw [dif_pos hn] at h
    cases h
  · exact UnorderedMap.lookup_insert _ _ _ _

theorem sessionOf_bind {c : UInt64} {t : PlayerSession} (h : (s.bind c t).1 = true)
    (u : UInt32) :
    (s.bind c t).2.sessionOf u = if u = t.userId_ then some t else s.sessionOf u := by
  obtain ⟨-, -, hc, hu⟩ := bind_fst.mp h
  have hfind := findByConnection_bind h
  apply Option.ext
  intro t'
  rw [sessionOf_eq_some_iff]
  split
  · rename_i hut
    subst hut
    constructor
    · rintro ⟨c', hc', hu'⟩
      rw [hfind] at hc'
      split at hc'
      · exact hc'
      · -- the user was not online
        exact absurd (sessionOf_eq_some_iff.mpr ⟨c', hc', hu'⟩) (by simp [hu])
    · rintro ⟨⟩
      exact ⟨c, by rw [hfind, if_pos rfl], rfl⟩
  · rename_i hut
    rw [sessionOf_eq_some_iff]
    constructor
    · rintro ⟨c', hc', hu'⟩
      rw [hfind] at hc'
      split at hc'
      · obtain rfl := Option.some.inj hc'
        exact absurd hu'.symm hut
      · exact ⟨c', hc', hu'⟩
    · rintro ⟨c', hc', hu'⟩
      -- the connection had no session, so it is another one
      refine ⟨c', ?_, hu'⟩
      rw [hfind, if_neg, hc']
      rintro rfl
      simp [hc] at hc'

theorem findByConnection_remove (c c' : UInt64) :
    (s.remove c).findByConnection c' = if c' = c then none else s.findByConnection c' := by
  unfold remove
  split
  · rename_i h
    split
    · rename_i hc
      rw [hc]
      exact h
    · rfl
  · exact UnorderedMap.lookup_erase _ _ _

theorem remove_of_none {c : UInt64} (h : s.findByConnection c = none) : s.remove c = s := by
  apply ext_findByConnection
  intro c'
  rw [findByConnection_remove]
  split
  · rename_i hc
    rw [hc, h]
  · rfl

theorem sessionOf_remove {c : UInt64} {t : PlayerSession} (h : s.findByConnection c = some t)
    (u : UInt32) :
    (s.remove c).sessionOf u = if u = t.userId_ then none else s.sessionOf u := by
  apply Option.ext
  intro t'
  rw [sessionOf_eq_some_iff]
  simp only [findByConnection_remove]
  split
  · rename_i hu
    subst hu
    constructor
    · -- a user has one session, and it is gone
      rintro ⟨c', hc', hu'⟩
      split at hc'
      · cases hc'
      · rename_i hne
        exact absurd (connection_unique hc' h hu') hne
    · rintro ⟨⟩
  · rename_i hu
    rw [sessionOf_eq_some_iff]
    constructor
    · rintro ⟨c', hc', hu'⟩
      split at hc'
      · cases hc'
      · exact ⟨c', hc', hu'⟩
    · rintro ⟨c', hc', hu'⟩
      refine ⟨c', ?_, hu'⟩
      rw [if_neg, hc']
      rintro rfl
      rw [h, Option.some.injEq] at hc'
      exact hu (hc' ▸ hu'.symm)

end ArenaGame.SessionService
