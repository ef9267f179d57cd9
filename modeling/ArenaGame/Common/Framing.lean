import ArenaGame.Common.GameProtocol
import ArenaGame.Util.LittleEndian
import ArenaGame.Util.StreamCutter

/-!
# What a byte stream says, frame by frame

A frame is its total length in four bytes, its type in two bytes and its payload.  `cutFrame` looks
at the front of a stream; `frames` reads a stream from left to right up to the first incomplete
frame or the first length out of range.  Nothing here is translated from a loop of the source: it
is what the receive loops are compared with.
-/

namespace ArenaGame

open GameProtocol

/-- A message type with its payload. -/
abbrev Frame := UInt16 × List UInt8

def cutFrame (s : List UInt8) : Cut Frame :=
  let totalLen := LittleEndian.ofBytes (s.take 4)
  if s.length < HEADER_SIZE then .wait
  else if totalLen < HEADER_SIZE ∨ MAX_FRAME < totalLen then .halt
  else if s.length < totalLen then .wait
  else
    .item (UInt16.ofNat (LittleEndian.ofBytes ((s.drop 4).take 2)),
      (s.drop HEADER_SIZE).take (totalLen - HEADER_SIZE)) totalLen

theorem cutFrame_eq_item_iff {s : List UInt8} {f : Frame} {n : ℕ} :
    cutFrame s = .item f n ↔
      n = LittleEndian.ofBytes (s.take 4) ∧ HEADER_SIZE ≤ n ∧ n ≤ MAX_FRAME ∧ n ≤ s.length ∧
        f = (UInt16.ofNat (LittleEndian.ofBytes ((s.drop 4).take 2)),
          (s.drop HEADER_SIZE).take (n - HEADER_SIZE)) := by
  unfold cutFrame
  simp only
  constructor
  · intro h
    split_ifs at h with h₁ h₂ h₃
    obtain ⟨rfl, rfl⟩ := Cut.item.inj h
    exact ⟨rfl, by omega, by omega, by omega, rfl⟩
  · rintro ⟨rfl, h₁, h₂, h₃, rfl⟩
    rw [if_neg (by omega), if_neg (by omega), if_neg (by omega)]

theorem cutFrame_of_short {s : List UInt8} (h : ¬ HEADER_SIZE ≤ s.length) : cutFrame s = .wait := by
  unfold cutFrame
  exact if_pos (Nat.not_le.mp h)

theorem cutFrame_eq_halt_iff {s : List UInt8} :
    cutFrame s = .halt ↔ HEADER_SIZE ≤ s.length ∧
      (LittleEndian.ofBytes (s.take 4) < HEADER_SIZE ∨
        MAX_FRAME < LittleEndian.ofBytes (s.take 4)) := by
  unfold cutFrame
  simp only
  constructor
  · intro h
    split_ifs at h with h₁ h₂
    exact ⟨by omega, h₂⟩
  · rintro ⟨h₁, h₂⟩
    rw [if_neg (by omega), if_pos h₂]

theorem take_append_of_header {s : List UInt8} (h : HEADER_SIZE ≤ s.length) (t : List UInt8) :
    (s ++ t).take 4 = s.take 4 ∧ ((s ++ t).drop 4).take 2 = (s.drop 4).take 2 := by
  unfold HEADER_SIZE at h
  constructor
  · exact List.take_append_of_le_length (by omega)
  · rw [List.drop_append_of_le_length (by omega), List.take_append_of_le_length (by simp; omega)]

/-- The frame format as a cutter. -/
def frameCutter : Cutter UInt8 Frame where
  cut := cutFrame
  item_pos h := by
    have := (cutFrame_eq_item_iff.mp h).2.1
    unfold HEADER_SIZE at this
    omega
  item_le h := (cutFrame_eq_item_iff.mp h).2.2.2.1
  item_append t h := by
    obtain ⟨hn, h₁, h₂, h₃, rfl⟩ := cutFrame_eq_item_iff.mp h
    obtain ⟨hlen, htype⟩ := take_append_of_header (h₁.trans h₃) t
    refine cutFrame_eq_item_iff.mpr ⟨by rw [hlen]; exact hn, h₁, h₂, by simp; omega, ?_⟩
    rw [htype, List.drop_append_of_le_length (h₁.trans h₃),
      List.take_append_of_le_length (by simp; omega)]
  halt_append t h := by
    obtain ⟨h₁, h₂⟩ := cutFrame_eq_halt_iff.mp h
    refine cutFrame_eq_halt_iff.mpr ⟨by simp; omega, ?_⟩
    rwa [(take_append_of_header h₁ t).1]

theorem frameCutter_run_nil : frameCutter.run [] = ([], []) :=
  Cutter.run_of_not_item fun _ _ h => by cases h

@[simp] theorem frameCutter_items_nil : frameCutter.items [] = [] :=
  congrArg Prod.fst frameCutter_run_nil

@[simp] theorem frameCutter_rest_nil : frameCutter.rest [] = [] :=
  congrArg Prod.snd frameCutter_run_nil

/-- The frames of a byte stream, left to right. -/
def frames (s : List UInt8) : List Frame := frameCutter.items s

end ArenaGame
