import Mathlib.Tactic.Linarith

/-!
# Frames in a stream

`cut` takes one frame off the front of a buffer when it is all there. What arrives in chunks is
appended to the buffer, and after each chunk frames are cut off until none is whole.

* `exists_split`: a prefix of a stream of frames is some of them and the start of the next.
* `drain_stream`: draining it takes those off.
* `feed_chunks`: so does feeding it in chunks, wherever they are cut.
-/

namespace Lib

variable {α β γ : Type*}

/-- The bytes of frames, one after another. -/
def stream (bytes : β → List α) (fs : List β) : List α := fs.flatMap bytes

/-- A part of the first of the frames that are still to come, not all of it. -/
def Unfinished (bytes : β → List α) (tail : List α) : List β → Prop
  | [] => tail = []
  | f :: _ => tail <+: bytes f ∧ tail.length < (bytes f).length

/-- Cuts frames off until none is whole; nothing if the fuel does not last. -/
def drain (cut : List α → Option (γ × List α)) : ℕ → List α → Option (List γ × List α)
  | 0, _ => none
  | fuel + 1, buf =>
    match cut buf with
    | none => some ([], buf)
    | some (p, rest) => (drain cut fuel rest).map fun r => (p :: r.1, r.2)

/-- The frames that the loop takes off after each of the chunks, and what is left at the end. -/
def feed (cut : List α → Option (γ × List α)) (fuel : ℕ) (buf : List α) :
    List (List α) → Option (List γ × List α)
  | [] => some ([], buf)
  | c :: cs =>
    (drain cut fuel (buf ++ c)).bind fun r =>
      (feed cut fuel r.2 cs).map fun r' => (r.1 ++ r'.1, r'.2)

/-- `cut` takes whole frames off, as what `out` makes of them, and nothing else. -/
structure Cuts (bytes : β → List α) (cut : List α → Option (γ × List α)) (out : β → γ) : Prop where
  whole : ∀ f rest, cut (bytes f ++ rest) = some (out f, rest)
  part : ∀ f buf, buf <+: bytes f → buf.length < (bytes f).length → cut buf = none
  empty : cut [] = none

variable {bytes : β → List α} {cut : List α → Option (γ × List α)} {out : β → γ} {fs todo : List β}
  {tail : List α} {fuel : ℕ}

@[simp] theorem stream_nil : stream bytes [] = [] := rfl

@[simp] theorem stream_cons (f : β) : stream bytes (f :: fs) = bytes f ++ stream bytes fs := rfl

/-- Frames that follow each other follow each other in the stream. -/
theorem stream_append (fs gs : List β) :
    stream bytes (fs ++ gs) = stream bytes fs ++ stream bytes gs := List.flatMap_append

/-- What of a prefix of the stream are whole frames. -/
theorem exists_split {q : List α} (h : q <+: stream bytes todo) :
    ∃ now later tail, todo = now ++ later ∧ q = stream bytes now ++ tail ∧
      Unfinished bytes tail later := by
  induction todo generalizing q with
  | nil => exact ⟨[], [], [], rfl, List.prefix_nil.mp h, rfl⟩
  | cons f todo ih =>
    rw [stream_cons] at h
    by_cases hlen : q.length < (bytes f).length
    · -- the first frame is not all there
      have hpart : q <+: bytes f :=
        List.prefix_of_prefix_length_le h (List.prefix_append _ _) hlen.le
      exact ⟨[], f :: todo, q, rfl, rfl, hpart, hlen⟩
    · have hfirst : bytes f <+: q :=
        List.prefix_of_prefix_length_le (List.prefix_append _ _) h (not_lt.mp hlen)
      obtain ⟨q', rfl⟩ := hfirst
      obtain ⟨now, later, tail, rfl, rfl, htail⟩ := ih ((List.prefix_append_right_inj _).mp h)
      exact ⟨f :: now, later, tail, rfl, (List.append_assoc _ _ _).symm, htail⟩

/-- From a frame that has not arrived whole nothing is cut. -/
theorem Cuts.unfinished (h : Cuts bytes cut out) (htail : Unfinished bytes tail todo) :
    cut tail = none := by
  cases todo with
  | nil =>
    obtain rfl : tail = [] := htail
    exact h.empty
  | cons f todo => exact h.part f tail htail.1 htail.2

/-- **Draining** takes the whole frames off and leaves the rest. -/
theorem drain_stream (fs : List β) (h : Cuts bytes cut out) (htail : Unfinished bytes tail todo)
    (hfuel : fs.length < fuel) :
    drain cut fuel (stream bytes fs ++ tail) = some (fs.map out, tail) := by
  induction fs generalizing fuel with
  | nil =>
    obtain ⟨fuel, rfl⟩ := Nat.exists_eq_succ_of_ne_zero (Nat.ne_of_gt hfuel)
    simp only [drain, stream_nil, List.nil_append, h.unfinished htail, List.map_nil]
  | cons f fs ih =>
    obtain ⟨fuel, rfl⟩ := Nat.exists_eq_succ_of_ne_zero (Nat.ne_of_gt (Nat.zero_lt_of_lt hfuel))
    rw [List.length_cons] at hfuel
    simp only [drain, stream_cons, List.append_assoc, h.whole]
    rw [ih (by omega)]
    rfl

/-- **Chunks do not matter.** Fed a prefix of the stream in chunks, the loop takes off what it takes
off when all of it arrives at once. -/
theorem feed_chunks (h : Cuts bytes cut out) {buf : List α} (hbuf : Unfinished bytes buf todo)
    (chunks : List (List α)) (hstart : buf ++ chunks.flatten <+: stream bytes todo)
    (hfuel : todo.length < fuel) :
    feed cut fuel buf chunks = drain cut fuel (buf ++ chunks.flatten) := by
  induction chunks generalizing buf todo with
  | nil =>
    rw [List.flatten_nil, List.append_nil]
    exact (drain_stream [] h hbuf (Nat.zero_lt_of_lt hfuel)).symm
  | cons c cs ih =>
    rw [List.flatten_cons, ← List.append_assoc] at hstart ⊢
    have hfirst : buf ++ c <+: stream bytes todo := (List.prefix_append _ _).trans hstart
    obtain ⟨now, later, tail, rfl, hsplit, htail⟩ := exists_split hfirst
    rw [List.length_append] at hfuel
    have hdrain : drain cut fuel (buf ++ c) = some (now.map out, tail) := by
      rw [hsplit]
      exact drain_stream _ h htail (by omega)
    -- the other chunks go on from what is left
    rw [hsplit, stream_append, List.append_assoc] at hstart
    have hrest := (List.prefix_append_right_inj _).mp hstart
    obtain ⟨now', later', tail', rfl, hsplit', htail'⟩ := exists_split hrest
    rw [List.length_append] at hfuel
    have hfeed : feed cut fuel tail cs = some (now'.map out, tail') := by
      rw [ih htail hrest (by rw [List.length_append]; omega), hsplit']
      exact drain_stream _ h htail' (by omega)
    have hall : drain cut fuel (buf ++ c ++ cs.flatten) =
        some ((now ++ now').map out, tail') := by
      rw [hsplit, List.append_assoc, hsplit', ← List.append_assoc, ← stream_append]
      exact drain_stream _ h htail' (by rw [List.length_append]; omega)
    simp only [feed, hdrain, Option.bind_some, hfeed, Option.map_some, hall, List.map_append]

/-- Nothing has arrived of the next frame. -/
theorem unfinished_nil (hne : ∀ f, bytes f ≠ []) (todo : List β) : Unfinished bytes [] todo := by
  cases todo with
  | nil => rfl
  | cons f todo => exact ⟨List.nil_prefix, List.length_pos_iff.mpr (hne f)⟩

/-- What is unfinished is not all that is still to come. -/
theorem Unfinished.eq_nil (h : Unfinished bytes tail todo) (hall : tail = stream bytes todo) :
    todo = [] := by
  cases todo with
  | nil => rfl
  | cons f todo =>
    have hlt := h.2
    rw [hall, stream_cons, List.length_append] at hlt
    omega

end Lib
