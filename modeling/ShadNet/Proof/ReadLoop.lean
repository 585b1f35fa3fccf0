import ShadNet.Spec.ReadLoop

/-!
# The packet loop and the size field

The loop checks that a size field is not too large, and not that it covers the header.

* `rounds_frameStart`: the rounds of the loop start at the frames, cut off the buffer by
  their size fields.
* `iteration_size`: what an iteration with a size field of at least `headerSize` takes off
  and hands over.
* `loopOk_iff`: the loop terminates with every packet cut off as its header says exactly
  when no header that it reaches has a smaller size field.
* `size_zero_diverges`: with size field `0` it processes one packet for ever.
-/

namespace ShadNet

open Lib

variable {buf : List UInt8} {p : Packet} {rest : List UInt8}

/-- A request frame of an accepted size, all of which has arrived. -/
structure FrameAt (buf : List UInt8) (k : ℕ) : Prop where
  whole : k + headerSize ≤ buf.length
  type : (header (buf.drop k)).type = PacketType.request.code
  size : (header (buf.drop k)).pktSize ≤ maxPacketSize
  arrived : k + (header (buf.drop k)).pktSize ≤ buf.length

/-- Cutting the frames off by their size fields, one starts at byte `k`. -/
inductive FrameStart (buf : List UInt8) : ℕ → Prop
  | zero : FrameStart buf 0
  | next {k : ℕ} : FrameStart buf k → FrameAt buf k →
      FrameStart buf (k + (header (buf.drop k)).pktSize)

/-- **Every frame that the loop reaches is at least as long as its header.** -/
def SizesOk (buf : List UInt8) : Prop :=
  ∀ k, FrameStart buf k → FrameAt buf k → headerSize ≤ (header (buf.drop k)).pktSize

/-- An iteration on `buf` removed the bytes that the header names, at least the header, and
handed over what stood behind the header. -/
structure CutOk (buf : List UInt8) (p : Packet) (rest : List UInt8) : Prop where
  size : headerSize ≤ (header buf).pktSize
  bytes : buf = buf.take headerSize ++ p.payload ++ rest
  removed : rest.length + (header buf).pktSize = buf.length
  handed : p.payload.length + headerSize = (header buf).pktSize

/-- **What the loop must do.** -/
structure LoopOk (buf : List UInt8) : Prop where
  terminates : Terminates nextBuf buf
  cut : ∀ n b p rest, rounds nextBuf buf n = some b → iteration b = .packet p rest →
    CutOk b p rest

/-- The iterations that call `ProcessPacket` are those on a frame. -/
theorem iteration_frame {k : ℕ} : FrameAt buf k ↔ ∃ p, iteration (buf.drop k) =
    .packet p (buf.drop (k + (header (buf.drop k)).pktSize)) := by
  constructor
  · intro h
    have h1 := h.whole
    have h2 := h.size
    have h3 := h.arrived
    unfold iteration
    rw [if_neg (by rw [List.length_drop]; omega), if_neg (not_not.mpr h.type), if_neg (by omega),
      if_neg (by rw [List.length_drop]; omega), ← List.drop_drop (l := buf)]
    exact ⟨_, rfl⟩
  · rintro ⟨p, h⟩
    -- none of the four exits was taken
    unfold iteration at h
    split at h
    · cases h
    rename_i h1
    split at h
    · cases h
    rename_i h2
    split at h
    · cases h
    rename_i h3
    split at h
    · cases h
    rename_i h4
    rw [List.length_drop] at h1 h4
    have hpos : 0 < headerSize := by decide
    exact ⟨by omega, by simpa using h2, by omega, by omega⟩

/-- What is left behind by a packet. -/
theorem iteration_rest (h : iteration buf = .packet p rest) :
    rest = buf.drop (header buf).pktSize := by
  unfold iteration at h
  split_ifs at h
  exact (Iteration.packet.inj h).2.symm

theorem nextBuf_eq_some {b : List UInt8} : nextBuf buf = some b ↔ ∃ p, iteration buf = .packet p b := by
  unfold nextBuf
  cases h : iteration buf with
  | exit e => simp
  | packet p r => simp

/-- **The rounds of the loop start at the frames.** -/
theorem rounds_frameStart {b : List UInt8} :
    (∃ n, rounds nextBuf buf n = some b) ↔ ∃ k, FrameStart buf k ∧ b = buf.drop k := by
  constructor
  · rintro ⟨n, h⟩
    refine rounds_inv (P := fun b => ∃ k, FrameStart buf k ∧ b = buf.drop k) ⟨0, .zero, by simp⟩ ?_
      n b h
    rintro _ u ⟨k, hk, rfl⟩ hu
    obtain ⟨p, hp⟩ := nextBuf_eq_some.mp hu
    have hrest := iteration_rest hp
    rw [List.drop_drop] at hrest
    have hf : FrameAt buf k := iteration_frame.mpr ⟨p, by rw [hp, hrest]⟩
    exact ⟨_, hk.next hf, hrest⟩
  · rintro ⟨k, hk, rfl⟩
    induction hk with
    | zero => exact ⟨0, by simp⟩
    | next _ hf ih =>
      obtain ⟨n, hn⟩ := ih
      exact ⟨n + 1, rounds_succ_of hn (nextBuf_eq_some.mpr (iteration_frame.mp hf))⟩

/-- **A size field that covers the header cuts exactly its frame off.** -/
theorem iteration_size (h : iteration buf = .packet p rest)
    (hs : headerSize ≤ (header buf).pktSize) : CutOk buf p rest := by
  have hf : FrameAt buf 0 := iteration_frame.mpr ⟨p, by simpa [iteration_rest h] using h⟩
  have hmax := hf.size
  have harr := hf.arrived
  have hrest := iteration_rest h
  rw [List.drop_zero] at hmax harr
  -- the unsigned difference does not wrap
  have hsub : subU32 (header buf).pktSize headerSize = (header buf).pktSize - headerSize := by
    unfold subU32
    have : maxPacketSize < 2 ^ 32 := by decide
    rw [show (header buf).pktSize + 2 ^ 32 - headerSize
      = (header buf).pktSize - headerSize + 2 ^ 32 by omega, Nat.add_mod_right]
    exact Nat.mod_eq_of_lt (by omega)
  have hpay : p.payload = (buf.drop headerSize).take ((header buf).pktSize - headerSize) := by
    unfold iteration at h
    split_ifs at h
    rw [← (Iteration.packet.inj h).1, hsub]
  have hrest' : rest = (buf.drop headerSize).drop ((header buf).pktSize - headerSize) := by
    rw [List.drop_drop, hrest, Nat.add_sub_cancel' hs]
  refine ⟨hs, ?_, by rw [hrest, List.length_drop]; omega, ?_⟩
  · calc buf = buf.take headerSize ++ buf.drop headerSize := (List.take_append_drop _ _).symm
      _ = buf.take headerSize ++ (p.payload ++ rest) := by
        rw [hpay, hrest', List.take_append_drop _ (buf.drop headerSize)]
      _ = buf.take headerSize ++ p.payload ++ rest := (List.append_assoc _ _ _).symm
  · rw [hpay, List.length_take, List.length_drop]; omega

/-- **The loop does what it must exactly when every size field covers its header.** -/
theorem loopOk_iff (buf : List UInt8) : LoopOk buf ↔ SizesOk buf := by
  constructor
  · intro h k hk hf
    obtain ⟨n, hn⟩ := rounds_frameStart.mpr ⟨k, hk, rfl⟩
    obtain ⟨p, hp⟩ := iteration_frame.mp hf
    exact (h.cut n _ p _ hn hp).size
  · intro h
    have hcut : ∀ n b p rest, rounds nextBuf buf n = some b → iteration b = .packet p rest →
        CutOk b p rest := by
      intro n b p rest hn hp
      obtain ⟨k, hk, rfl⟩ := rounds_frameStart.mp ⟨n, hn⟩
      have hrest := iteration_rest hp
      rw [List.drop_drop] at hrest
      exact iteration_size hp (h k hk (iteration_frame.mpr ⟨p, by rw [hp, hrest]⟩))
    refine ⟨?_, hcut⟩
    -- every packet takes at least its header off
    apply terminates_of_measure (P := fun b => ∃ n, rounds nextBuf buf n = some b) List.length
      ⟨0, rfl⟩
    rintro b u ⟨n, hn⟩ hu
    obtain ⟨p, hp⟩ := nextBuf_eq_some.mp hu
    have hc := hcut n b p u hn hp
    have hs := hc.size
    have hl := hc.removed
    have hpos : 0 < headerSize := by decide
    exact ⟨⟨n + 1, rounds_succ_of hn hu⟩, by omega⟩

/-- With size field `0` the loop never leaves. -/
theorem size_zero_diverges (buf : List UInt8) (hf : FrameAt buf 0) (h0 : (header buf).pktSize = 0) :
    ¬ Terminates nextBuf buf := by
  obtain ⟨p, hp⟩ := iteration_frame.mp hf
  rw [List.drop_zero, h0, List.drop_zero] at hp
  exact not_terminates_of_fixed (n := 0) rfl (nextBuf_eq_some.mpr ⟨p, hp⟩)

/-- Fifteen zero bytes are such a frame. -/
theorem zero_header_diverges : ¬ ∀ buf, LoopOk buf := by
  intro h
  exact size_zero_diverges (List.replicate 15 0)
    ⟨by decide, by decide, by decide, by decide⟩ (by decide) (h _).terminates

end ShadNet
