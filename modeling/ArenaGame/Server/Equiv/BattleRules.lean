import ArenaGame.Server.Equiv.BattleService
import ArenaGame.Util.Machine
import Mathlib.Data.Rat.Floor

/-!
# The rules of a battle, for every sequence of calls

A battle gets attacks and surrenders in any order, from anyone and for any room.  What they make of
it depends on the accepted attacks only: they alternate, and the number of them gives both healths
(`Fought`).  So the battle ends with a known blow (`lastBlow`), unless a player gives up before.
-/

namespace ArenaGame

inductive BattleCall where
  | attack (roomId : UInt64) (userId : UInt32)
  | forfeit (roomId : UInt64) (userId : UInt32)
deriving DecidableEq

namespace BattleCall

def roomId : BattleCall → UInt64
  | attack roomId _ => roomId
  | forfeit roomId _ => roomId

/-- What a call does to the battle of its room; `none` is a refusal. -/
def on : BattleCall → BattleState → Option BattleState
  | attack _ userId, state => state.attack userId
  | forfeit _ userId, state => state.forfeit userId

/-- The attacker, where this is an accepted attack on the room `r`. -/
def hit (r : UInt64) : BattleCall × BattleActionResult → Option UInt32
  | (attack roomId userId, result) => if roomId = r ∧ result.accepted_ then some userId else none
  | (forfeit _ _, _) => none

/-- The player who gives up, where this is accepted in the room `r`. -/
def surrender (r : UInt64) : BattleCall × BattleActionResult → Option UInt32
  | (attack _ _, _) => none
  | (forfeit roomId userId, result) => if roomId = r ∧ result.accepted_ then some userId else none

def hits (r : UInt64) (answers : List (BattleCall × BattleActionResult)) : List UInt32 :=
  answers.filterMap (hit r)

def surrenders (r : UInt64) (answers : List (BattleCall × BattleActionResult)) : List UInt32 :=
  answers.filterMap (surrender r)

/-- Only accepted calls for the room count. -/
theorem hit_eq_none {r : UInt64} {call : BattleCall} {result : BattleActionResult}
    (h : call.roomId ≠ r ∨ result.accepted_ = false) : hit r (call, result) = none := by
  cases call with
  | attack roomId userId =>
    refine if_neg fun hhit => ?_
    rcases h with hother | hrefused
    · exact hother hhit.1
    · rw [hrefused] at hhit
      exact Bool.false_ne_true hhit.2
  | forfeit roomId userId => rfl

@[simp] theorem hits_concat (r : UInt64) (answers : List (BattleCall × BattleActionResult))
    (answer : BattleCall × BattleActionResult) :
    hits r (answers ++ [answer]) = hits r answers ++ (hit r answer).toList := by
  unfold hits
  cases h : hit r answer <;> simp [h]

@[simp] theorem surrenders_concat (r : UInt64) (answers : List (BattleCall × BattleActionResult))
    (answer : BattleCall × BattleActionResult) :
    surrenders r (answers ++ [answer]) = surrenders r answers ++ (surrender r answer).toList := by
  unfold surrenders
  cases h : surrender r answer <;> simp [h]

end BattleCall

open BattleCall

namespace BattleService

def call (s : BattleService) : BattleCall → BattleActionResult × BattleService
  | .attack roomId userId => s.attack roomId userId
  | .forfeit roomId userId => s.forfeit roomId userId

/-- The service under any sequence of calls; each is put out with its answer. -/
def machine : Machine BattleService BattleCall (BattleCall × BattleActionResult) where
  step s call := ((s.call call).2, [(call, (s.call call).1)])
  Enabled _ _ := True

end BattleService

/-! ### The rules -/

/-- The player whose turn it is after `k` blows. -/
def Room.player (room : Room) (k : ℕ) : UInt32 :=
  if k % 2 = 0 then room.firstUserId_ else room.secondUserId_

/-- The blow that brings a health to 0, for the damages of the two heroes. -/
def lastBlow (firstDamage secondDamage : ℕ) : ℕ :=
  min (2 * ⌈(100 / firstDamage : ℚ)⌉₊ - 1) (2 * ⌈(100 / secondDamage : ℚ)⌉₊)

/-- The battle of a room after some answers, of which `k` are accepted attacks on it. -/
structure Fought (room : Room) (answers : List (BattleCall × BattleActionResult)) (k : ℕ)
    (state : BattleState) : Prop where
  first : state.firstUserId_ = room.firstUserId_
  second : state.secondUserId_ = room.secondUserId_
  firstHero : state.firstHero_ = room.firstHero_
  secondHero : state.secondHero_ = room.secondHero_
  /-- The blows alternate, and the first user begins. -/
  hits : hits room.roomId_ answers = (List.range k).map room.player
  secondHealth : state.secondHealth_.toNat =
    100 - (heroDamage room.firstHero_).toNat * ((k + 1) / 2)
  firstHealth : state.firstHealth_.toNat = 100 - (heroDamage room.secondHero_).toNat * (k / 2)
  running : state.finished_ = false → 0 < state.firstHealth_ ∧ 0 < state.secondHealth_ ∧
    state.winnerUserId_ = 0 ∧ state.activeUserId_ = room.player k
  done : state.finished_ = true → state.activeUserId_ = 0
  /-- Unless somebody gives up, the battle ends with the blow that brings a health to 0, and who
  strikes this blow wins. -/
  won : surrenders room.roomId_ answers = [] → state.finished_ = true →
    (state.firstHealth_ = 0 ∨ state.secondHealth_ = 0) ∧ state.winnerUserId_ = room.player (k - 1)
  /-- No blow comes after the last one. -/
  le_lastBlow : k ≤ lastBlow (heroDamage room.firstHero_).toNat (heroDamage room.secondHero_).toNat

/-- What the next call does to the battle of a room. -/
structure Answered (room : Room) (s : BattleService) (state : BattleState) (call : BattleCall) :
    Prop where
  attack : ∀ u, call = .attack room.roomId_ u →
    ((s.call call).1.accepted_ = true ↔ state.finished_ = false ∧ state.activeUserId_ = u)
  /-- A member who gives up leaves the victory to the other one, and the healths as they are. -/
  forfeit : ∀ u, call = .forfeit room.roomId_ u → state.finished_ = false →
    (u = room.firstUserId_ ∨ u = room.secondUserId_) →
    (s.call call).1.accepted_ = true ∧
      (s.call call).2.find room.roomId_ = some { state with
        finished_ := true
        winnerUserId_ :=
          if u = room.firstUserId_ then room.secondUserId_ else room.firstUserId_
        activeUserId_ := 0 }
  done : call.roomId = room.roomId_ → state.finished_ = true → (s.call call).1.accepted_ = false
  refused : (s.call call).1.accepted_ = false → (s.call call).2 = s
  other : call.roomId ≠ room.roomId_ → (s.call call).2.find room.roomId_ = some state

/-! ### Arithmetic of blows -/

theorem lt_ceil_iff {d k : ℕ} (hd : 0 < d) :
    k < ⌈(100 / d : ℚ)⌉₊ ↔ d * k < 100 := by
  have hd' : (0 : ℚ) < d := by exact_mod_cast hd
  rw [Nat.lt_ceil, lt_div_iff₀ hd', mul_comm d k]
  exact_mod_cast Iff.rfl

/-- Both players stand as long as the last blow has not come. -/
theorem lt_lastBlow {d₁ d₂ k : ℕ} (h₁ : 0 < d₁) (h₂ : 0 < d₂) :
    k < lastBlow d₁ d₂ ↔ d₁ * ((k + 1) / 2) < 100 ∧ d₂ * (k / 2) < 100 := by
  rw [← lt_ceil_iff h₁, ← lt_ceil_iff h₂]
  unfold lastBlow
  omega

theorem toNat_strike (health damage : UInt16) :
    (strike health damage).1.toNat = health.toNat - damage.toNat := by
  unfold strike
  split
  · rename_i h
    have hle : health.toNat ≤ damage.toNat := h
    show 0 = _
    omega
  · rename_i h
    have hlt : damage.toNat < health.toNat := UInt16.not_le.mp h
    exact UInt16.toNat_sub_of_le _ _ hlt.le

theorem strike_fells (health damage : UInt16) :
    (strike health damage).2 = true ↔ (strike health damage).1 = 0 := by
  rw [← UInt16.toNat_inj, toNat_strike]
  unfold strike
  split
  · rename_i h
    have hle : health.toNat ≤ damage.toNat := h
    simp only [true_iff]
    show _ = 0
    omega
  · rename_i h
    have hlt : damage.toNat < health.toNat := UInt16.not_le.mp h
    simp only [Bool.false_eq_true, false_iff]
    show ¬ _ = 0
    omega

namespace BattleState

/-- A blow of the first user. -/
theorem attack_first {state state' : BattleState} {u : UInt32} (h : state.attack u = some state')
    (hu : u = state.firstUserId_) :
    state'.firstHealth_ = state.firstHealth_ ∧
      state'.secondHealth_ = (strike state.secondHealth_ (heroDamage state.firstHero_)).1 ∧
      (state'.finished_ = true ↔ state'.secondHealth_ = 0) ∧
      (state'.finished_ = true → state'.winnerUserId_ = u) ∧
      (state'.finished_ = false → state'.winnerUserId_ = state.winnerUserId_ ∧
        state'.activeUserId_ = state.secondUserId_) := by
  have hfells := strike_fells state.secondHealth_ (heroDamage state.firstHero_)
  subst hu
  simp only [attack] at h
  split_ifs at h with h₁ h₂ h₃ <;> simp only [Option.some.injEq] at h <;> subst h
  · exact ⟨rfl, rfl, iff_of_true rfl (hfells.mp h₃), fun _ => rfl, fun h => by cases h⟩
  · push Not at h₁
    refine ⟨rfl, rfl, iff_of_false h₁.1 fun hzero => h₃ (hfells.mpr hzero),
      fun h => absurd h h₁.1, fun _ => ⟨rfl, rfl⟩⟩

/-- A blow of the second user. -/
theorem attack_second {state state' : BattleState} {u : UInt32} (h : state.attack u = some state')
    (hne : u ≠ state.firstUserId_) :
    state'.secondHealth_ = state.secondHealth_ ∧
      state'.firstHealth_ = (strike state.firstHealth_ (heroDamage state.secondHero_)).1 ∧
      (state'.finished_ = true ↔ state'.firstHealth_ = 0) ∧
      (state'.finished_ = true → state'.winnerUserId_ = u) ∧
      (state'.finished_ = false → state'.winnerUserId_ = state.winnerUserId_ ∧
        state'.activeUserId_ = state.firstUserId_) := by
  have hfells := strike_fells state.firstHealth_ (heroDamage state.secondHero_)
  simp only [attack, if_neg hne] at h
  split_ifs at h with h₁ h₂ h₃ h₄ <;> simp only [Option.some.injEq] at h <;> subst h
  · exact ⟨rfl, rfl, iff_of_true rfl (hfells.mp h₄), fun _ => rfl, fun h => by cases h⟩
  · push Not at h₁
    refine ⟨rfl, rfl, iff_of_false h₁.1 fun hzero => h₄ (hfells.mpr hzero),
      fun h => absurd h h₁.1, fun _ => ⟨rfl, rfl⟩⟩

end BattleState

/-! ### The invariant -/

section Fought

variable {room : Room} {answers : List (BattleCall × BattleActionResult)} {k : ℕ}
  {state : BattleState}

variable (room) in
theorem fought_initialState : Fought room [] 0 (BattleService.initialState room) where
  first := rfl
  second := rfl
  firstHero := rfl
  secondHero := rfl
  hits := rfl
  secondHealth := rfl
  firstHealth := rfl
  running _ :=
    have hpos : (0 : UInt16) < 100 := by decide
    ⟨hpos, hpos, rfl, rfl⟩
  done h := by cases h
  won _ h := by cases h
  le_lastBlow := Nat.zero_le _

theorem pos_toNat {d : UInt16} (h : d ≠ 0) : 0 < d.toNat := by
  rw [Nat.pos_iff_ne_zero]
  exact fun hzero => h (UInt16.toNat_inj.mp hzero)

/-- The healths tell whether the last blow has come. -/
theorem Fought.lt_lastBlow_iff (h : Fought room answers k state) (hv : state.Valid) :
    k < lastBlow (heroDamage room.firstHero_).toNat (heroDamage room.secondHero_).toNat ↔
      state.firstHealth_ ≠ 0 ∧ state.secondHealth_ ≠ 0 := by
  have h₁ := pos_toNat hv.firstDamage_ne_zero
  have h₂ := pos_toNat hv.secondDamage_ne_zero
  rw [h.firstHero] at h₁
  rw [h.secondHero] at h₂
  rw [lt_lastBlow h₁ h₂, ne_eq, ne_eq, ← UInt16.toNat_inj, ← UInt16.toNat_inj, h.firstHealth,
    h.secondHealth]
  show _ ↔ ¬ _ = 0 ∧ ¬ _ = 0
  omega

/-- Answers that are no accepted call for the room do not count. -/
theorem Fought.append (h : Fought room answers k state) {call : BattleCall}
    {result : BattleActionResult}
    (hno : call.roomId ≠ room.roomId_ ∨ result.accepted_ = false) :
    Fought room (answers ++ [(call, result)]) k state where
  first := h.first
  second := h.second
  firstHero := h.firstHero
  secondHero := h.secondHero
  hits := by
    rw [hits_concat, hit_eq_none hno, h.hits]
    exact List.append_nil _
  secondHealth := h.secondHealth
  firstHealth := h.firstHealth
  running := h.running
  done := h.done
  won hnone := by
    rw [surrenders_concat] at hnone
    exact h.won (List.append_eq_nil_iff.mp hnone).1
  le_lastBlow := h.le_lastBlow

theorem player_succ {room : Room} (k : ℕ) :
    room.player (k + 1) = if k % 2 = 0 then room.secondUserId_ else room.firstUserId_ := by
  unfold Room.player
  rcases Nat.mod_two_eq_zero_or_one k with h | h
  · rw [if_pos h, if_neg (by omega)]
  · rw [if_neg (by omega : ¬ k % 2 = 0), if_pos (by omega)]

/-- What an accepted blow does to the healths, and to the turn. -/
theorem Fought.blow (h : Fought room answers k state) {u : UInt32} {state' : BattleState}
    (hu : u = room.player k) (hne : room.firstUserId_ ≠ room.secondUserId_)
    (hfirst : state.firstHealth_ ≠ 0) (hsecond : state.secondHealth_ ≠ 0)
    (hattack : state.attack u = some state') :
    state'.secondHealth_.toNat = 100 - (heroDamage room.firstHero_).toNat * ((k + 1 + 1) / 2) ∧
      state'.firstHealth_.toNat = 100 - (heroDamage room.secondHero_).toNat * ((k + 1) / 2) ∧
      (state'.finished_ = true ↔ state'.firstHealth_ = 0 ∨ state'.secondHealth_ = 0) ∧
      (state'.finished_ = true → state'.winnerUserId_ = u) ∧
      (state'.finished_ = false → state'.winnerUserId_ = state.winnerUserId_ ∧
        state'.activeUserId_ = room.player (k + 1)) := by
  rw [player_succ]
  unfold Room.player at hu
  -- the blows with an even number are those of the first player
  rcases Nat.mod_two_eq_zero_or_one k with heven | hodd
  · rw [if_pos heven] at hu
    obtain ⟨hsame, hhurt, hfell, hwon, hgoes⟩ :=
      BattleState.attack_first hattack (hu.trans h.first.symm)
    have hhalf : (k + 1) / 2 = k / 2 := by omega
    have hhalf' : (k + 1 + 1) / 2 = k / 2 + 1 := by omega
    refine ⟨?_, ?_, ?_, hwon, fun hfin => ?_⟩
    · rw [hhurt, toNat_strike, h.secondHealth, h.firstHero, hhalf, hhalf', Nat.mul_succ]
      omega
    · rw [hsame, h.firstHealth, hhalf]
    · rw [hfell, hsame]
      exact (or_iff_right hfirst).symm
    · rw [if_pos heven, ← h.second]
      exact hgoes hfin
  · have hnot : ¬ k % 2 = 0 := by omega
    rw [if_neg hnot] at hu
    obtain ⟨hsame, hhurt, hfell, hwon, hgoes⟩ :=
      BattleState.attack_second hattack (by rw [hu, h.first]; exact hne.symm)
    have hhalf : (k + 1) / 2 = k / 2 + 1 := by omega
    have hhalf' : (k + 1 + 1) / 2 = (k + 1) / 2 := by omega
    refine ⟨?_, ?_, ?_, hwon, fun hfin => ?_⟩
    · rw [hsame, h.secondHealth, hhalf']
    · rw [hhurt, toNat_strike, h.firstHealth, h.secondHero, hhalf, Nat.mul_succ]
      omega
    · rw [hfell, hsame]
      exact (or_iff_left hsecond).symm
    · rw [if_neg hnot, ← h.first]
      exact hgoes hfin

/-- One accepted blow more. -/
theorem Fought.attack (h : Fought room answers k state) (hv : state.Valid) {u : UInt32}
    {state' : BattleState} (hattack : state.attack u = some state') {result : BattleActionResult}
    (haccepted : result.accepted_ = true) :
    Fought room (answers ++ [(.attack room.roomId_ u, result)]) (k + 1) state' := by
  have hspec := BattleState.attack_spec hv hattack
  -- an accepted attack comes before the end, so both players stand
  obtain ⟨hpos₁, hpos₂, hwinner, hactive⟩ := h.running hspec.unfinished
  have hfirst := UInt16.pos_iff_ne_zero.mp hpos₁
  have hsecond := UInt16.pos_iff_ne_zero.mp hpos₂
  have hu : u = room.player k := by rw [← hspec.active, hactive]
  have hne := hv.first_ne_second
  rw [h.first, h.second] at hne
  obtain ⟨hhealth₂, hhealth₁, hfell, hwon, hgoes⟩ :=
    h.blow hu hne hfirst hsecond hattack
  exact {
    first := hspec.first.trans h.first
    second := hspec.second.trans h.second
    firstHero := hspec.firstHero.trans h.firstHero
    secondHero := hspec.secondHero.trans h.secondHero
    hits := by
      have hhit : hit room.roomId_ (.attack room.roomId_ u, result) = some u :=
        if_pos ⟨rfl, haccepted⟩
      rw [hits_concat, hhit, h.hits, List.range_succ, List.map_append, hu]
      rfl
    secondHealth := hhealth₂
    firstHealth := hhealth₁
    running := by
      intro hfin
      have hstand : ¬ (state'.firstHealth_ = 0 ∨ state'.secondHealth_ = 0) := by
        rw [← hfell, hfin]
        exact Bool.false_ne_true
      rw [not_or] at hstand
      obtain ⟨hsame, hturn⟩ := hgoes hfin
      exact ⟨UInt16.pos_iff_ne_zero.mpr hstand.1, UInt16.pos_iff_ne_zero.mpr hstand.2,
        hsame.trans hwinner, hturn⟩
    done := by
      intro hfin
      rcases hspec.turn with ⟨-, -, hzero⟩ | ⟨hgoes, -, -⟩
      · exact hzero
      · rw [hgoes] at hfin
        cases hfin
    won := fun _ hfin => ⟨hfell.mp hfin, (hwon hfin).trans hu⟩
    le_lastBlow := (h.lt_lastBlow_iff hv).mpr ⟨hfirst, hsecond⟩ }

/-- A player gives up. -/
theorem Fought.forfeit (h : Fought room answers k state) (hv : state.Valid) {u : UInt32}
    {state' : BattleState} (hforfeit : state.forfeit u = some state') {result : BattleActionResult}
    (haccepted : result.accepted_ = true) :
    Fought room (answers ++ [(.forfeit room.roomId_ u, result)]) k state' := by
  have hsurrender : surrender room.roomId_ (.forfeit room.roomId_ u, result) = some u :=
    if_pos ⟨rfl, haccepted⟩
  have hspec := BattleState.forfeit_spec hv hforfeit
  -- only the three fields of the result change
  have hhealth : state' = { state with
      finished_ := true
      winnerUserId_ := state'.winnerUserId_
      activeUserId_ := 0 } := by
    simp only [BattleState.forfeit] at hforfeit
    split_ifs at hforfeit <;> simp only [Option.some.injEq] at hforfeit <;> subst hforfeit <;> rfl
  rw [hhealth]
  exact {
    first := h.first
    second := h.second
    firstHero := h.firstHero
    secondHero := h.secondHero
    hits := by
      rw [hits_concat, h.hits]
      exact List.append_nil _
    secondHealth := h.secondHealth
    firstHealth := h.firstHealth
    running := fun hfin => by cases hfin
    done := fun _ => rfl
    won := by
      intro hnone
      rw [surrenders_concat, hsurrender] at hnone
      exact absurd (List.append_eq_nil_iff.mp hnone).2 (List.cons_ne_nil _ _)
    le_lastBlow := h.le_lastBlow }

/-- Without a surrender, the battle is finished if and only if the last blow has come. -/
theorem Fought.finished_iff (h : Fought room answers k state) (hv : state.Valid)
    (hnone : surrenders room.roomId_ answers = []) :
    state.finished_ = true ↔
      k = lastBlow (heroDamage room.firstHero_).toNat (heroDamage room.secondHero_).toNat := by
  have hlt := h.lt_lastBlow_iff hv
  constructor
  · intro hfin
    obtain ⟨hzero, -⟩ := h.won hnone hfin
    have hnot : ¬ k < _ := fun hk => by
      obtain ⟨h₁, h₂⟩ := hlt.mp hk
      exact hzero.elim h₁ h₂
    exact le_antisymm h.le_lastBlow (not_lt.mp hnot)
  · intro hk
    by_contra hgoes
    obtain ⟨h₁, h₂, -, -⟩ := h.running (by simpa using hgoes)
    have hkt := hlt.mpr ⟨UInt16.pos_iff_ne_zero.mp h₁, UInt16.pos_iff_ne_zero.mp h₂⟩
    exact absurd hk hkt.ne

end Fought

/-! ### Every call -/

namespace BattleService

variable {s : BattleService} {room : Room} {answers : List (BattleCall × BattleActionResult)}
  {k : ℕ} {state : BattleState}

/-- What a call does, by cases. -/
inductive CallCases (s : BattleService) (call : BattleCall) :
    BattleActionResult × BattleService → Prop
  | refused : (∀ state, s.find call.roomId = some state → call.on state = none) →
      CallCases s call ({}, s)
  | accepted {state state' result s'} : s.find call.roomId = some state →
      call.on state = some state' → result.accepted_ = true →
      (∀ r, s'.find r = if r = call.roomId then some state' else s.find r) →
      CallCases s call (result, s')

theorem call_cases (call : BattleCall) : CallCases s call (s.call call) := by
  cases call with
  | attack r u =>
    show CallCases s _ (s.attack r u)
    have hcases := attack_cases (s := s) r u
    generalize s.attack r u = answer at hcases ⊢
    cases hcases with
    | refused hno => exact .refused hno
    | accepted hs hattack hfind => exact .accepted hs hattack rfl hfind
  | forfeit r u =>
    show CallCases s _ (s.forfeit r u)
    have hcases := forfeit_cases (s := s) r u
    generalize s.forfeit r u = answer at hcases ⊢
    cases hcases with
    | refused hno => exact .refused hno
    | accepted hs hforfeit hfind => exact .accepted hs hforfeit rfl hfind

/-- The invariant survives a call. -/
theorem fought_call (h : Fought room answers k state) (hs : s.find room.roomId_ = some state)
    (call : BattleCall) :
    ∃ k' state', (s.call call).2.find room.roomId_ = some state' ∧
      Fought room (answers ++ [(call, (s.call call).1)]) k' state' := by
  have hv := find_valid hs
  have hcases := call_cases (s := s) call
  generalize s.call call = answer at hcases ⊢
  cases hcases with
  | refused hno => exact ⟨k, state, hs, h.append (Or.inr rfl)⟩
  | @accepted before after result s' hbefore hon haccepted hfind =>
    rw [hfind]
    by_cases hr : call.roomId = room.roomId_
    · rw [hr] at hbefore
      obtain rfl : before = state := Option.some.inj (hbefore.symm.trans hs)
      rw [if_pos hr.symm]
      cases call with
      | attack r u =>
        obtain rfl : r = room.roomId_ := hr
        exact ⟨k + 1, after, rfl, h.attack hv hon haccepted⟩
      | forfeit r u =>
        obtain rfl : r = room.roomId_ := hr
        exact ⟨k, after, rfl, h.forfeit hv hon haccepted⟩
    · rw [if_neg (Ne.symm hr)]
      exact ⟨k, state, hs, h.append (Or.inl hr)⟩

/-- A call for a room whose battle is known. -/
theorem call_of_find (call : BattleCall) (hs : s.find call.roomId = some state) :
    (call.on state = none ∧ s.call call = ({}, s)) ∨
      ∃ state' result s', call.on state = some state' ∧ result.accepted_ = true ∧
        s.call call = (result, s') ∧
        ∀ r, s'.find r = if r = call.roomId then some state' else s.find r := by
  have hcases := call_cases (s := s) call
  generalize s.call call = answer at hcases ⊢
  cases hcases with
  | refused hno => exact Or.inl ⟨hno state hs, rfl⟩
  | @accepted before after result s' hbefore hon haccepted hfind =>
    obtain rfl : before = state := Option.some.inj (hbefore.symm.trans hs)
    exact Or.inr ⟨after, result, s', hon, haccepted, rfl, hfind⟩

/-- An attack is accepted from the player whose turn it is. -/
theorem attack_accepted_iff (hs : s.find room.roomId_ = some state) (u : UInt32) :
    (s.call (.attack room.roomId_ u)).1.accepted_ = true ↔
      state.finished_ = false ∧ state.activeUserId_ = u := by
  have hv := find_valid hs
  rcases call_of_find (.attack room.roomId_ u) hs with
    ⟨hnone, heq⟩ | ⟨state', result, s', hattack, haccepted, heq, -⟩
  · rw [heq]
    apply iff_of_false Bool.false_ne_true
    rintro ⟨hgoes, hturn⟩
    rcases BattleState.attack_eq_none hv hnone with hfin | hother
    · rw [hfin] at hgoes
      cases hgoes
    · exact hother hturn
  · rw [heq]
    have hspec := BattleState.attack_spec hv hattack
    exact iff_of_true haccepted ⟨hspec.unfinished, hspec.active⟩

theorem forfeit_eq {u : UInt32} (hgoes : state.finished_ = false)
    (hmember : u = state.firstUserId_ ∨ u = state.secondUserId_) :
    state.forfeit u = some { state with
      finished_ := true
      winnerUserId_ := if u = state.firstUserId_ then state.secondUserId_ else state.firstUserId_
      activeUserId_ := 0 } := by
  unfold BattleState.forfeit
  rw [if_neg]
  rintro (hfin | ⟨hne₁, hne₂⟩)
  · rw [hgoes] at hfin
    cases hfin
  · exact hmember.elim hne₁ hne₂

/-- A battle that is finished stays as it is. -/
theorem on_of_finished {call : BattleCall} (hv : state.Valid) (hfin : state.finished_ = true) :
    call.on state = none := by
  cases call with
  | attack r u =>
    by_contra hsome
    obtain ⟨state', hattack⟩ := Option.ne_none_iff_exists'.mp hsome
    have hgoes := (BattleState.attack_spec hv hattack).unfinished
    rw [hfin] at hgoes
    cases hgoes
  | forfeit r u => simp [BattleCall.on, BattleState.forfeit, hfin]

/-- What a call does to a battle that is as the invariant says. -/
theorem answered_call (h : Fought room answers k state) (hs : s.find room.roomId_ = some state)
    (call : BattleCall) : Answered room s state call where
  attack := by
    rintro u rfl
    exact attack_accepted_iff hs u
  forfeit := by
    rintro u rfl hgoes hmember
    rw [← h.first, ← h.second] at hmember ⊢
    have hon := forfeit_eq hgoes hmember
    -- a member of a battle that goes on is not refused
    rcases call_of_find (.forfeit room.roomId_ u) hs with
      ⟨hnone, -⟩ | ⟨state', result, s', hforfeit, haccepted, heq, hfind⟩
    · exact absurd (hnone.symm.trans hon) (Option.some_ne_none _).symm
    · rw [heq]
      refine ⟨haccepted, ?_⟩
      rw [hfind, ← hon]
      exact (if_pos rfl).trans hforfeit.symm
  done := by
    intro hr hfin
    rcases call_of_find call (hr ▸ hs) with
      ⟨-, heq⟩ | ⟨state', result, s', hon, -⟩
    · rw [heq]
    · exact absurd (on_of_finished (find_valid hs) hfin) (hon ▸ Option.some_ne_none _)
  refused := by
    intro hrefused
    have hcases := call_cases (s := s) call
    generalize s.call call = answer at hcases hrefused ⊢
    cases hcases with
    | refused hno => rfl
    | accepted hbefore hon haccepted hfind =>
      rw [haccepted] at hrefused
      cases hrefused
  other := by
    intro hother
    have hcases := call_cases (s := s) call
    generalize s.call call = answer at hcases ⊢
    cases hcases with
    | refused hno => exact hs
    | accepted hbefore hon haccepted hfind =>
      rw [hfind, if_neg (Ne.symm hother)]
      exact hs

theorem canRun (s : BattleService) (calls : List BattleCall) : machine.CanRun s calls := by
  induction calls generalizing s with
  | nil => trivial
  | cons call calls ih => exact ⟨trivial, ih _⟩

/-- The invariant holds after every sequence of calls. -/
theorem fought_run (hs : s.find room.roomId_ = some (initialState room)) (calls : List BattleCall) :
    ∃ k state, (machine.run s calls).1.find room.roomId_ = some state ∧
      Fought room (machine.run s calls).2 k state := by
  refine Machine.run_induction (M := machine)
    (P := fun answers s => ∃ k state, s.find room.roomId_ = some state ∧
      Fought room answers k state) ?_ ⟨0, initialState room, hs, fought_initialState room⟩
    (canRun s calls)
  rintro answers s call ⟨k, state, hs, h⟩ -
  exact fought_call h hs call

theorem find_start (hstart : (s.start room).1 = true) :
    (s.start room).2.find room.roomId_ = some (initialState room) := by
  unfold start at hstart ⊢
  split
  · rename_i hrefused
    rw [dif_pos hrefused] at hstart
    cases hstart
  · exact (UnorderedMap.lookup_insert _ _ _ _).trans (if_pos rfl)

/-- **Battles follow the rules.**  After any sequence of calls to a service that has accepted a room,
the battle of the room is as the number of accepted attacks on it says; without a surrender it is
finished if and only if this is the number of the last blow; and so is any further call answered. -/
theorem battle_follows_rules (s : BattleService) (room : Room) (hstart : (s.start room).1 = true)
    (calls : List BattleCall) :
    let s' := (machine.run (s.start room).2 calls).1
    let answers := (machine.run (s.start room).2 calls).2
    let k := (hits room.roomId_ answers).length
    ∃ state, s'.find room.roomId_ = some state ∧ Fought room answers k state ∧
      (surrenders room.roomId_ answers = [] → (state.finished_ = true ↔
        k = lastBlow (heroDamage room.firstHero_).toNat (heroDamage room.secondHero_).toNat)) ∧
      ∀ call, Answered room s' state call := by
  obtain ⟨k, state, hfind, hfought⟩ := fought_run (find_start hstart) calls
  have hk : (hits room.roomId_ (machine.run (s.start room).2 calls).2).length = k := by
    rw [hfought.hits, List.length_map, List.length_range]
  intro s' answers k'
  have hcount : k' = k := hk
  rw [hcount]
  exact ⟨state, hfind, hfought, hfought.finished_iff (find_valid hfind),
    answered_call hfought hfind⟩

/-- A warrior against a mage. -/
def duel : Room :=
  { roomId_ := 1, firstUserId_ := 1, secondUserId_ := 2, firstHero_ := .kWarrior,
    secondHero_ := .kMage }

example : lastBlow (heroDamage duel.firstHero_).toNat (heroDamage duel.secondHero_).toNat = 7 := by
  decide +kernel

theorem battle_follows_rules_duel :
    ∃ state, (machine.run (empty.start duel).2 [.attack 1 1, .attack 1 1, .attack 1 2]).1.find 1 =
        some state ∧
      Fought duel (machine.run (empty.start duel).2 [.attack 1 1, .attack 1 1, .attack 1 2]).2 2
        state := by
  have hhits : (hits 1 (machine.run (empty.start duel).2
      [.attack 1 1, .attack 1 1, .attack 1 2]).2).length = 2 := by decide +kernel
  obtain ⟨state, hfind, hfought, -, -⟩ :=
    battle_follows_rules empty duel (by decide +kernel) [.attack 1 1, .attack 1 1, .attack 1 2]
  rw [show duel.roomId_ = 1 from rfl] at hfind hfought
  rw [hhits] at hfought
  exact ⟨state, hfind, hfought⟩

end BattleService

end ArenaGame
