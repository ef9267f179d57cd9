import ArenaGame.Client.Connection
import ArenaGame.Common.FrameWriter

/-!
# What a new connection finds in the receive buffer

`recvBuf_` is not cleared when a connection ends.  After any run it holds what the frames of all
received bytes leave, of whichever connection they were (`run_eq`), so a connection starts clean
exactly if the bytes before it were whole frames (`starts_clean_iff`).
-/

namespace ArenaGame.GameClient

open GameProtocol LittleEndian

variable {σ : Type} (slots : Slots σ)

/-- All bytes that were received in a run. -/
def bytesOf (events : List Event) : List UInt8 := events.flatMap Event.data

theorem step_eq (client : GameClient σ) (event : Event)
    (hheld : frameCutter.rest client.recvBuf_ = client.recvBuf_) :
    (step slots client event).1.recvBuf_ = frameCutter.rest (client.recvBuf_ ++ event.data) ∧
      (step slots client event).2 = frameCutter.items (client.recvBuf_ ++ event.data) := by
  have hnone := Cutter.items_of_rest_eq hheld
  cases event with
  | readyRead data =>
    obtain ⟨hbuf, hlog⟩ := processBuffer_logged (handle slots) (close slots)
      (client.recvBuf_ ++ data) ((client.isConnected, client.scenes), [])
    exact ⟨hbuf, hlog⟩
  | connected =>
    simp only [step, Event.data, List.append_nil]
    exact ⟨hheld.symm, hnone.symm⟩
  | disconnected =>
    simp only [step, Event.data, List.append_nil]
    exact ⟨hheld.symm, hnone.symm⟩

/-- The connections of a run are one stream for the receive buffer. -/
theorem run_eq (events : List Event) (client : GameClient σ)
    (hheld : frameCutter.rest client.recvBuf_ = client.recvBuf_) :
    ((machine slots).run client events).1.recvBuf_ =
        frameCutter.rest (client.recvBuf_ ++ bytesOf events) ∧
      ((machine slots).run client events).2 =
        frameCutter.items (client.recvBuf_ ++ bytesOf events) := by
  induction events generalizing client with
  | nil =>
    have hnone := Cutter.items_of_rest_eq hheld
    simp only [Machine.run_nil, bytesOf, List.flatMap_nil, List.append_nil]
    exact ⟨hheld.symm, hnone.symm⟩
  | cons event events ih =>
    obtain ⟨hbuf, hout⟩ := step_eq slots client event hheld
    have hrest : frameCutter.rest (step slots client event).1.recvBuf_ =
        (step slots client event).1.recvBuf_ := by
      rw [hbuf]
      exact Cutter.rest_rest _
    obtain ⟨hbuf', hout'⟩ := ih (step slots client event).1 hrest
    have hbytes : bytesOf (event :: events) = event.data ++ bytesOf events := List.flatMap_cons
    rw [Machine.run_cons, hbytes, ← List.append_assoc, Cutter.rest_append, Cutter.items_append,
      ← hbuf, ← hout]
    exact ⟨hbuf', congrArg _ hout'⟩

theorem bytesOf_epoch (chunks : List (List UInt8)) : bytesOf (epoch chunks) = chunks.flatten := by
  unfold bytesOf epoch
  rw [List.flatMap_cons, List.flatMap_map]
  exact List.flatMap_id'

/-- Nothing but whole frames. -/
def WholeFrames (s : List UInt8) : Prop :=
  ∃ fs : List Frame, (∀ f ∈ fs, SmallFrame f) ∧ s = fs.flatMap frameBytes

theorem wholeFrames_iff {s : List UInt8} : WholeFrames s ↔ frameCutter.rest s = [] := by
  constructor
  · rintro ⟨fs, hfs, rfl⟩
    exact congrArg Prod.snd (run_whole_frames hfs)
  · intro hrest
    refine ⟨frames s, fun f hf => smallFrame_of_mem_frames hf, ?_⟩
    have hall := frames_append_rest s
    rw [hrest, List.append_nil] at hall
    exact hall.symm

/-- `MSG_HEARTBEAT_REQ` without a payload. -/
def heartbeat : List UInt8 := [6, 0, 0, 0, 1, 0]

theorem cutFrame_heartbeat : cutFrame heartbeat = .item (1, []) 6 :=
  cutFrame_eq_item_iff.mpr ⟨by decide, by decide, by decide, by decide, by decide⟩

theorem frames_heartbeat : frames heartbeat = [(1, [])] := by
  have hcut : frameCutter.cut heartbeat = .item (1, []) 6 := cutFrame_heartbeat
  unfold frames
  rw [Cutter.items_of_item hcut]
  exact congrArg _ frameCutter_items_nil

/-- Bytes that do not start with a frame hide a heartbeat that comes behind them. -/
theorem items_append_heartbeat {s : List UInt8} (hrest : frameCutter.rest s = s) (hne : s ≠ []) :
    frameCutter.items (s ++ heartbeat) ≠ frames heartbeat := by
  have hstop : ∀ f n, cutFrame s ≠ .item f n := Cutter.cut_ne_item_of_rest_eq hrest
  rw [frames_heartbeat]
  intro hitems
  -- the first frame of `s ++ heartbeat` is the heartbeat
  obtain ⟨f, n, hcut⟩ : ∃ f n, frameCutter.cut (s ++ heartbeat) = .item f n := by
    by_contra hnone
    push Not at hnone
    rw [Cutter.items_of_not_item hnone] at hitems
    cases hitems
  rw [Cutter.items_of_item hcut] at hitems
  obtain rfl : f = (1, []) := (List.cons.inj hitems).1
  obtain ⟨htake, hsmall⟩ := take_eq_frameBytes hcut
  have hbytes : frameBytes (1, []) = heartbeat := by decide
  have hlen : n = 6 := by
    have hle := frameCutter.item_le hcut
    have hn := congrArg List.length htake
    rw [hbytes, List.length_take, Nat.min_eq_left hle] at hn
    exact hn
  rw [hbytes, hlen] at htake
  by_cases hlong : 6 ≤ s.length
  · -- then `s` itself starts with it
    rw [List.take_append_of_le_length hlong] at htake
    have hcut' : frameCutter.cut heartbeat = .item (1, []) 6 := cutFrame_heartbeat
    have hitem := frameCutter.item_append (s.drop 6) hcut'
    rw [← htake, List.take_append_drop] at hitem
    exact hstop _ _ hitem
  · -- a beginning of the heartbeat is followed by the byte 6, which the heartbeat has nowhere else
    have hs : s = heartbeat.take s.length := by
      have hpre := congrArg (List.take s.length) htake
      rwa [List.take_take, Nat.min_eq_left (by omega), List.take_left] at hpre
    have hpos : 0 < s.length := List.length_pos_iff.mpr hne
    have hborder : ∀ k < 6, 0 < k → (heartbeat.take k ++ heartbeat).take 6 ≠ heartbeat := by
      decide
    apply hborder s.length (by omega) hpos
    rw [← hs]
    exact htake

/-- **A connection starts clean if and only if the connections before it have ended between two
frames.** -/
theorem starts_clean_iff (s₀ : σ) (events : List Event)
    (hend : ((machine slots).run { scenes := s₀ } events).1.isConnected = false) :
    (∀ chunks : List (List UInt8),
      (machine slots).CanRun ((machine slots).run { scenes := s₀ } events).1 (epoch chunks) →
      ((machine slots).run ((machine slots).run { scenes := s₀ } events).1 (epoch chunks)).2 =
        frames chunks.flatten) ↔
      WholeFrames (bytesOf events) := by
  set client := ((machine slots).run { scenes := s₀ } events).1 with hclient
  have hbuf : client.recvBuf_ = frameCutter.rest (bytesOf events) :=
    (run_eq slots events { scenes := s₀ } frameCutter_rest_nil).1
  have hheld : frameCutter.rest client.recvBuf_ = client.recvBuf_ := by
    rw [hbuf]
    exact Cutter.rest_rest _
  have hout : ∀ chunks, ((machine slots).run client (epoch chunks)).2 =
      frameCutter.items (client.recvBuf_ ++ chunks.flatten) := by
    intro chunks
    rw [(run_eq slots (epoch chunks) client hheld).2, bytesOf_epoch]
  rw [wholeFrames_iff, ← hbuf]
  constructor
  · intro hclean
    by_contra hne
    have hepoch : (machine slots).CanRun client (epoch [heartbeat]) := ⟨hend, rfl, trivial⟩
    have hsame := hclean [heartbeat] hepoch
    rw [hout, List.flatten_singleton] at hsame
    exact items_append_heartbeat hheld hne hsame
  · intro hempty chunks _
    rw [hout, hempty, List.nil_append]
    rfl

/-- A `GameClient` without handlers. -/
def idle : Slots Unit where
  connected := id
  disconnected := id
  handlers_ _ := none

/-- A connection that brings a heartbeat leaves nothing behind. -/
theorem starts_clean_heartbeat :
    ((machine idle).run
      ((machine idle).run { scenes := () } [.connected, .readyRead heartbeat, .disconnected]).1
      (epoch [[6, 0, 0], [0, 1, 0]])).2 = frames [[6, 0, 0], [0, 1, 0]].flatten :=
  (starts_clean_iff idle () [.connected, .readyRead heartbeat, .disconnected] rfl).mpr
    ⟨[(1, [])], by simp [SmallFrame], by decide⟩ _ (by decide +kernel)

/-- One byte that the first connection leaves behind is put before the bytes of the second. -/
theorem not_starts_clean :
    ¬ ∀ (events : List Event) (chunks : List (List UInt8)),
      (machine idle).CanRun { scenes := () } (events ++ epoch chunks) →
      ((machine idle).run { scenes := () } events).1.isConnected = false →
      ((machine idle).run ((machine idle).run { scenes := () } events).1 (epoch chunks)).2 =
        frames chunks.flatten := by
  intro h
  have hsame := h [.connected, .readyRead [6], .disconnected] [heartbeat] (by decide +kernel) rfl
  have hwait : cutFrame [6] = .wait := cutFrame_of_short (by decide)
  have hrest : frameCutter.rest [6] = [6] := Cutter.rest_of_not_item (by simp [frameCutter, hwait])
  have hbuf := (run_eq idle [.connected, .readyRead [6], .disconnected] { scenes := () }
    frameCutter_rest_nil).1
  rw [show bytesOf [.connected, .readyRead [6], .disconnected] = [6] from rfl, List.nil_append,
    hrest] at hbuf
  rw [(run_eq idle (epoch [heartbeat]) _ (by rw [hbuf, hrest])).2, hbuf, bytesOf_epoch,
    List.flatten_singleton] at hsame
  exact items_append_heartbeat hrest (by decide) hsame

end ArenaGame.GameClient
