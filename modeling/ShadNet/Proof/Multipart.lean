import ShadNet.Spec.Multipart

/-!
# The parts of a multipart body

* `partAt_eq_some_iff`: the searches of one round find the part behind a delimiter.
* `existsUnique_partsOf`: every body has its parts, and only these.
* `parseMultipartMixed_eq`: the loop ends, and its parts are read from those of the body.
* `readPart_data`, `readPart_data_empty`: the data of a part are its bytes less one line terminator,
  unless the delimiter follows its header block at once; then they are all bytes from there on.
* `multipart_ok_iff`: all is as it must be exactly when no part is of that kind.
-/

namespace ShadNet

open Lib SummonBroker

variable {body boundary delim : List UInt8} {pos : ℕ} {p p' : PartSpan} {ps ps' : List PartSpan}

/-! ## Delimiters and the parts behind them -/

theorem delimiter_ne_nil (boundary : List UInt8) : delimiter boundary ≠ [] := List.cons_ne_nil _ _

/-- The part behind a delimiter that ends at `pos`, if it is not the closing one. -/
structure PartBehind (body delim : List UInt8) (pos : ℕ) (p : PartSpan) : Prop where
  inside : pos < body.length
  open_ : ¬ OccursAt twoDashes body pos
  start : p.headerStart = headerStartAt body pos
  /-- the header block ends with the first empty line; of two `\n` only if there is none of two `\r\n` -/
  header : (FirstAt (crlf ++ crlf) body p.headerStart p.hdrEnd ∧ p.bodyStart = p.hdrEnd + 4) ∨
    ((∀ j, p.headerStart ≤ j → ¬ OccursAt (crlf ++ crlf) body j) ∧
      FirstAt [lineFeed, lineFeed] body p.headerStart p.hdrEnd ∧ p.bodyStart = p.hdrEnd + 2)
  next : FirstAt delim body p.bodyStart p.next

/-- The parts behind a delimiter that ends at `pos`, up to where no further part is. -/
inductive PartsFrom (body delim : List UInt8) : ℕ → List PartSpan → Prop where
  | nil {pos : ℕ} (h : ∀ p, ¬ PartBehind body delim pos p) : PartsFrom body delim pos []
  | cons {pos : ℕ} {p : PartSpan} {ps : List PartSpan} (h : PartBehind body delim pos p)
      (hs : PartsFrom body delim (p.next + delim.length) ps) : PartsFrom body delim pos (p :: ps)

/-- **The parts of a body.** -/
def PartsOf (body boundary : List UInt8) (ps : List PartSpan) : Prop :=
  ((∀ j, ¬ OccursAt (delimiter boundary) body j) ∧ ps = []) ∨
    ∃ pos, FirstAt (delimiter boundary) body 0 pos ∧
      PartsFrom body (delimiter boundary) (pos + (delimiter boundary).length) ps

/-! ## One round -/

/-- Two bytes are read where they stand. -/
theorem mid_two {l pat : List UInt8} (hpat : pat.length = 2) (pos : ℕ) :
    mid l pos 2 = pat ↔ OccursAt pat l pos := by
  have htake : mid l pos 2 = (l.drop pos).take 2 := by
    unfold mid
    split
    · rename_i h
      have hlen : (l.drop pos).length ≤ 2 := by
        rw [List.length_drop]
        omega
      exact (List.take_of_length_le hlen).symm
    · rfl
  rw [htake, ← hpat]
  exact ⟨fun h => h ▸ List.take_prefix _ _, fun h => (List.prefix_iff_eq_take.mp h).symm⟩

/-- The headers end with the first empty line, which has CR LF twice, or else LF twice. -/
theorem headerEndAt_eq_some_iff {n sep : ℕ} : headerEndAt body pos = some (n, sep) ↔
    (FirstAt (crlf ++ crlf) body pos n ∧ sep = 4) ∨
      ((∀ j, pos ≤ j → ¬ OccursAt (crlf ++ crlf) body j) ∧
        FirstAt [lineFeed, lineFeed] body pos n ∧ sep = 2) := by
  have hcrlf : crlf ++ crlf ≠ [] := List.cons_ne_nil _ _
  have hlf : [lineFeed, lineFeed] ≠ [] := List.cons_ne_nil _ _
  unfold headerEndAt
  cases h : indexOfFrom (crlf ++ crlf) body pos with
  | some hdrEnd =>
    have hfirst := (indexOfFrom_eq_some_iff hcrlf).mp h
    simp only [Option.some.injEq, Prod.mk.injEq]
    constructor
    · rintro ⟨rfl, rfl⟩
      exact Or.inl ⟨hfirst, rfl⟩
    · rintro (⟨hf, rfl⟩ | ⟨hno, -⟩)
      · exact ⟨hfirst.unique hf, rfl⟩
      · exact absurd hfirst.occurs (hno _ hfirst.le)
  | none =>
    have hno := (indexOfFrom_eq_none_iff hcrlf).mp h
    simp only [Option.map_eq_some_iff, Prod.mk.injEq]
    constructor
    · rintro ⟨hdrEnd, hfound, rfl, rfl⟩
      exact Or.inr ⟨hno, (indexOfFrom_eq_some_iff hlf).mp hfound, rfl⟩
    · rintro (⟨hf, -⟩ | ⟨-, hf, rfl⟩)
      · exact absurd hf.occurs (hno _ hf.le)
      · exact ⟨n, (indexOfFrom_eq_some_iff hlf).mpr hf, rfl, rfl⟩

/-- **A round finds the part** behind the delimiter. -/
theorem partAt_eq_some_iff (hdelim : delim ≠ []) :
    partAt body delim pos = some p ↔ PartBehind body delim pos p := by
  unfold partAt
  by_cases hin : body.length ≤ pos
  · rw [if_pos hin]
    refine iff_of_false (by simp) fun h => ?_
    have := h.inside
    omega
  rw [if_neg hin]
  by_cases hclose : mid body pos 2 = twoDashes
  · rw [if_pos hclose]
    exact iff_of_false (by simp) fun h => h.open_ ((mid_two rfl pos).mp hclose)
  rw [if_neg hclose]
  have hopen : ¬ OccursAt twoDashes body pos := fun h => hclose ((mid_two rfl pos).mpr h)
  constructor
  · intro h
    split at h
    · cases h
    · rename_i hdrEnd sep hend
      obtain ⟨next, hnext, rfl⟩ := Option.map_eq_some_iff.mp h
      have hfirst := (indexOfFrom_eq_some_iff hdelim).mp hnext
      refine ⟨by omega, hopen, rfl, ?_, hfirst⟩
      rcases headerEndAt_eq_some_iff.mp hend with ⟨hf, rfl⟩ | ⟨hno, hf, rfl⟩
      · exact Or.inl ⟨hf, rfl⟩
      · exact Or.inr ⟨hno, hf, rfl⟩
  · rintro ⟨-, -, hstart, hheader, hnext⟩
    obtain ⟨headerStart, hdrEnd, bodyStart, next⟩ := p
    simp only at hstart hheader hnext
    subst hstart
    have hfound := (indexOfFrom_eq_some_iff hdelim).mpr hnext
    rcases hheader with ⟨hf, rfl⟩ | ⟨hno, hf, rfl⟩
    · have hend : headerEndAt body (headerStartAt body pos) = some (hdrEnd, 4) :=
        headerEndAt_eq_some_iff.mpr (Or.inl ⟨hf, rfl⟩)
      rw [hend]
      simp only [hfound, Option.map_some]
    · have hend : headerEndAt body (headerStartAt body pos) = some (hdrEnd, 2) :=
        headerEndAt_eq_some_iff.mpr (Or.inr ⟨hno, hf, rfl⟩)
      rw [hend]
      simp only [hfound, Option.map_some]

namespace PartBehind

theorem headerStart_ge (h : PartBehind body delim pos p) : pos ≤ p.headerStart := by
  rw [h.start]
  unfold headerStartAt
  split
  · omega
  · split <;> omega

theorem hdrEnd_ge (h : PartBehind body delim pos p) : p.headerStart ≤ p.hdrEnd := by
  rcases h.header with ⟨hf, -⟩ | ⟨-, hf, -⟩
  · exact hf.le
  · exact hf.le

theorem bodyStart_gt (h : PartBehind body delim pos p) : pos < p.bodyStart := by
  have h1 := h.headerStart_ge
  have h2 := h.hdrEnd_ge
  rcases h.header with ⟨-, heq⟩ | ⟨-, -, heq⟩ <;> omega

/-- The next delimiter is inside the body. -/
theorem next_le (h : PartBehind body delim pos p) (hdelim : delim ≠ []) :
    p.next + delim.length ≤ body.length := h.next.occurs.le_length hdelim

/-- The header block ends with the end of a line. -/
theorem lineFeed_before (h : PartBehind body delim pos p) :
    [lineFeed] <:+ body.take p.bodyStart := by
  rcases h.header with ⟨hf, heq⟩ | ⟨-, hf, heq⟩
  · rw [heq]
    exact List.IsSuffix.trans ⟨[carriageReturn, lineFeed, carriageReturn], rfl⟩
      (hf.occurs.suffix_take (List.cons_ne_nil _ _))
  · rw [heq]
    exact List.IsSuffix.trans ⟨[lineFeed], rfl⟩ (hf.occurs.suffix_take (List.cons_ne_nil _ _))

end PartBehind

/-! ## The loop -/

/-- Each part takes the parser further. -/
theorem multipartStep_progress (hdelim : delim ≠ []) {s t : MultipartScan}
    (h : multipartStep body delim s = some t) : body.length - t.pos < body.length - s.pos := by
  obtain ⟨p, hp, rfl⟩ := Option.map_eq_some_iff.mp h
  have hbehind := (partAt_eq_some_iff hdelim).mp hp
  have h1 := hbehind.inside
  have h2 := hbehind.bodyStart_gt
  have h3 := hbehind.next.le
  simp only
  omega

/-- **The loop of the parser** ends. -/
theorem leaves_multipart (hdelim : delim ≠ []) (s : MultipartScan) :
    Leaves (multipartStep body delim) s (loop (multipartStep body delim) body.length s) :=
  leaves_loop (P := fun _ => True) (fun s => body.length - s.pos) trivial
    (fun _ _ _ h => ⟨trivial, multipartStep_progress hdelim h⟩) (Nat.sub_le _ _)

/-- It leaves with the parts behind the delimiter that it started from. -/
theorem leaves_partsFrom (hdelim : delim ≠ []) (h : PartsFrom body delim pos ps) :
    ∀ parts, ∃ t, Leaves (multipartStep body delim) ⟨pos, parts⟩ t ∧
      t.parts = parts ++ ps.map (readPart body) := by
  induction h with
  | nil hno =>
    intro parts
    refine ⟨_, .here (Option.map_eq_none_iff.mpr ?_), (List.append_nil parts).symm⟩
    exact Option.eq_none_iff_forall_ne_some.mpr fun p hp => hno p ((partAt_eq_some_iff hdelim).mp hp)
  | @cons pos p ps hp _ ih =>
    intro parts
    obtain ⟨t, ht, hparts⟩ := ih (parts ++ [readPart body p])
    refine ⟨t, ht.head ?_, by rw [hparts]; simp⟩
    unfold multipartStep
    rw [(partAt_eq_some_iff hdelim).mpr hp, Option.map_some]

theorem exists_partsFrom (body delim : List UInt8) (pos : ℕ) : ∃ ps, PartsFrom body delim pos ps := by
  induction h : body.length - pos using Nat.strong_induction_on generalizing pos with
  | _ n ih =>
    by_cases hex : ∃ p, PartBehind body delim pos p
    · obtain ⟨p, hp⟩ := hex
      have h1 := hp.inside
      have h2 := hp.bodyStart_gt
      have h3 := hp.next.le
      obtain ⟨ps, hps⟩ := ih (body.length - (p.next + delim.length)) (by omega) _ rfl
      exact ⟨p :: ps, .cons hp hps⟩
    · exact ⟨[], .nil fun p hp => hex ⟨p, hp⟩⟩

/-- There is one part behind a delimiter. -/
theorem PartBehind.unique (h : PartBehind body delim pos p) (h' : PartBehind body delim pos p')
    (hdelim : delim ≠ []) : p = p' := by
  have heq := ((partAt_eq_some_iff hdelim).mpr h).symm.trans ((partAt_eq_some_iff hdelim).mpr h')
  exact Option.some.inj heq

/-- The parts are determined. -/
theorem PartsFrom.unique (hdelim : delim ≠ []) (h : PartsFrom body delim pos ps)
    (h' : PartsFrom body delim pos ps') : ps = ps' := by
  induction h generalizing ps' with
  | nil hno =>
    cases h' with
    | nil => rfl
    | cons hp => exact absurd hp (hno _)
  | cons hp _ ih =>
    cases h' with
    | nil hno => exact absurd hp (hno _)
    | cons hp' hs' =>
      obtain rfl := hp.unique hp' hdelim
      rw [ih hs']

/-- **A body has one list of parts.** -/
theorem PartsOf.unique (h : PartsOf body boundary ps) (h' : PartsOf body boundary ps') : ps = ps' := by
  rcases h with ⟨hno, rfl⟩ | ⟨start, hfirst, hfrom⟩ <;> rcases h' with ⟨hno', rfl⟩ | ⟨start', hfirst', hfrom'⟩
  · rfl
  · exact absurd hfirst'.occurs (hno _)
  · exact absurd hfirst.occurs (hno' _)
  · obtain rfl := hfirst.unique hfirst'
    exact hfrom.unique (delimiter_ne_nil boundary) hfrom'

/-- **Every body has its parts**, and only these. -/
theorem existsUnique_partsOf (body boundary : List UInt8) : ∃! ps, PartsOf body boundary ps := by
  cases h : indexOfFrom (delimiter boundary) body 0 with
  | none =>
    have hno := (indexOfFrom_eq_none_iff (delimiter_ne_nil boundary)).mp h
    have hparts : PartsOf body boundary [] := Or.inl ⟨fun j => hno j (Nat.zero_le j), rfl⟩
    exact ⟨[], hparts, fun ps hps => hps.unique hparts⟩
  | some pos =>
    have hfirst := (indexOfFrom_eq_some_iff (delimiter_ne_nil boundary)).mp h
    obtain ⟨ps, hps⟩ := exists_partsFrom body (delimiter boundary) (pos + (delimiter boundary).length)
    have hparts : PartsOf body boundary ps := Or.inr ⟨pos, hfirst, hps⟩
    exact ⟨ps, hparts, fun ps' hps' => hps'.unique hparts⟩

/-- **The parser returns the parts of the body.** -/
theorem parseMultipartMixed_eq (h : PartsOf body boundary ps) :
    parseMultipartMixed body boundary = ps.map (readPart body) := by
  have hdelim := delimiter_ne_nil boundary
  unfold parseMultipartMixed
  simp only
  rcases h with ⟨hno, rfl⟩ | ⟨pos, hfirst, hfrom⟩
  · rw [(indexOfFrom_eq_none_iff hdelim).mpr fun j _ => hno j]
    rfl
  · rw [(indexOfFrom_eq_some_iff hdelim).mpr hfirst]
    obtain ⟨t, ht, hparts⟩ := leaves_partsFrom hdelim hfrom []
    simp only
    rw [(leaves_multipart hdelim _).unique ht, hparts, List.nil_append]

/-! ## The data of a part -/

/-- How long the line terminator at the end is, if there is one. -/
def terminatorLength (l : List UInt8) : ℕ :=
  if crlf <:+ l then 2 else if [lineFeed] <:+ l then 1 else 0

/-- Less one line terminator. -/
def chop (l : List UInt8) : List UInt8 := l.take (l.length - terminatorLength l)

/-- The bytes between the header block and the next delimiter. -/
def PartSpan.slice (p : PartSpan) (body : List UInt8) : List UInt8 := (body.take p.next).drop p.bodyStart

theorem terminatorLength_le (l : List UInt8) : terminatorLength l ≤ l.length := by
  unfold terminatorLength
  split
  · rename_i h
    exact h.length_le
  · split
    · rename_i h
      exact h.length_le
    · exact Nat.zero_le _

/-- The end of the line before a delimiter is no data. -/
theorem bodyEndAt_eq {next : ℕ} (hn : next ≤ body.length) :
    bodyEndAt body next = next - terminatorLength (body.take next) := by
  have hcrlf : crlf <:+ body.take next ↔ 2 ≤ next ∧ mid body (next - 2) 2 = crlf := by
    rw [suffix_take_iff hn, mid_two rfl]
    rfl
  have hlf : [lineFeed] <:+ body.take next ↔ 1 ≤ next ∧ body[next - 1]? = some lineFeed := by
    rw [suffix_take_iff hn, occursAt_singleton]
    rfl
  unfold bodyEndAt terminatorLength
  simp only [hcrlf, hlf]
  split
  · rfl
  · split <;> rfl

/-- Behind the end of a line the terminator of other bytes is their own. -/
theorem terminatorLength_append {before l : List UInt8} (hbefore : [lineFeed] <:+ before) (hl : l ≠ []) :
    terminatorLength (before ++ l) = terminatorLength l := by
  have hlf : [lineFeed] <:+ before ++ l ↔ [lineFeed] <:+ l := by
    refine ⟨fun h => ?_, fun h => h.trans (List.suffix_append before l)⟩
    exact List.suffix_of_suffix_length_le h (List.suffix_append before l) (List.length_pos_of_ne_nil hl)
  have hcrlf : crlf <:+ before ++ l ↔ crlf <:+ l := by
    refine ⟨fun h => ?_, fun h => h.trans (List.suffix_append before l)⟩
    by_cases hlen : 2 ≤ l.length
    · exact List.suffix_of_suffix_length_le h (List.suffix_append before l) hlen
    · -- the byte before the only one is no carriage return
      obtain ⟨b, rfl⟩ := List.length_eq_one_iff.mp
        (show l.length = 1 by have := List.length_pos_of_ne_nil hl; omega)
      obtain ⟨init, rfl⟩ := hbefore
      have hlast : [lineFeed, b] <:+ init ++ [lineFeed] ++ [b] := ⟨init, by simp⟩
      have heq : crlf = [lineFeed, b] :=
        (List.suffix_of_suffix_length_le h hlast le_rfl).eq_of_length rfl
      cases heq
  unfold terminatorLength
  simp only [hcrlf, hlf]

theorem terminatorLength_pos {l : List UInt8} (h : [lineFeed] <:+ l) : 0 < terminatorLength l := by
  unfold terminatorLength
  rw [if_pos h]
  split <;> omega

/-- The header lines do not touch the data. -/
theorem foldl_parseHeader_data (lines : List (List UInt8)) (part : MultipartPart) :
    (lines.foldl parseHeader part).data = part.data := by
  have hline : ∀ part raw, (parseHeader part raw).data = part.data := by
    intro part raw
    unfold parseHeader
    simp only
    split
    · rfl
    · split
      · rfl
      · split <;> rfl
  induction lines generalizing part with
  | nil => rfl
  | cons raw lines ih => rw [List.foldl_cons, ih, hline]

/-- The data of a part is what stands between. -/
theorem readPart_data_eq (body : List UInt8) (p : PartSpan) : (readPart body p).data =
    mid body p.bodyStart ((bodyEndAt body p.next : ℤ) - p.bodyStart) :=
  foldl_parseHeader_data _ _

theorem take_next (hle : p.bodyStart ≤ p.next) :
    body.take p.next = body.take p.bodyStart ++ p.slice body := by
  have htake : body.take p.bodyStart = (body.take p.next).take p.bodyStart := by
    rw [List.take_take, Nat.min_eq_left hle]
  unfold PartSpan.slice
  rw [htake, List.take_append_drop]

theorem slice_length (hdelim : delim ≠ []) (h : PartBehind body delim pos p) :
    (p.slice body).length = p.next - p.bodyStart := by
  have hnext := h.next_le hdelim
  unfold PartSpan.slice
  rw [List.length_drop, List.length_take_of_le (by omega)]

/-- **The data of a part** are its bytes less one line terminator. -/
theorem readPart_data (hdelim : delim ≠ []) (h : PartBehind body delim pos p)
    (hlt : p.bodyStart < p.next) : (readPart body p).data = chop (p.slice body) := by
  have hnext := h.next_le hdelim
  have hlen := slice_length hdelim h
  have hne : p.slice body ≠ [] := List.ne_nil_of_length_pos (by omega)
  have hterm : terminatorLength (body.take p.next) = terminatorLength (p.slice body) := by
    rw [take_next hlt.le, terminatorLength_append h.lineFeed_before hne]
  have hle := terminatorLength_le (p.slice body)
  have hslice : p.slice body = (body.drop p.bodyStart).take (p.next - p.bodyStart) := List.drop_take ..
  rw [readPart_data_eq, bodyEndAt_eq (by omega), hterm]
  unfold mid chop
  rw [if_neg (by omega), hlen]
  have hcount : (((p.next - terminatorLength (p.slice body) : ℕ) : ℤ) - p.bodyStart).toNat =
      p.next - p.bodyStart - terminatorLength (p.slice body) := by omega
  rw [hcount]
  conv_rhs => rw [hslice, List.take_take, Nat.min_eq_left (Nat.sub_le _ _)]
  rw [← hslice]

/-- Where the delimiter follows the header block at once, they are all bytes from there on. -/
theorem readPart_data_empty (hdelim : delim ≠ []) (h : PartBehind body delim pos p)
    (heq : p.bodyStart = p.next) : (readPart body p).data = body.drop p.bodyStart := by
  have hnext := h.next_le hdelim
  have hpos := terminatorLength_pos h.lineFeed_before
  have hle := terminatorLength_le (body.take p.bodyStart)
  rw [List.length_take] at hle
  rw [readPart_data_eq, bodyEndAt_eq (by omega), ← heq]
  unfold mid
  rw [if_pos (by omega)]

theorem infix_chop_self (l : List UInt8) : chop l <:+: l := (List.take_prefix _ l).isInfix

/-- The delimiter is not in the bytes before it. -/
theorem not_infix_slice (hdelim : delim ≠ []) (h : PartBehind body delim pos p) :
    ¬ delim <:+: chop (p.slice body) := by
  have hnext := h.next_le hdelim
  exact h.next.not_infix (by omega) hdelim (infix_chop_self _)

/-- Each part stands behind a delimiter. -/
theorem PartsFrom.behind (h : PartsFrom body delim pos ps) :
    ∀ p ∈ ps, ∃ pos, PartBehind body delim pos p := by
  induction h with
  | nil => simp
  | cons hp _ ih =>
    intro p hmem
    rcases List.mem_cons.mp hmem with rfl | hmem
    · exact ⟨_, hp⟩
    · exact ih p hmem

theorem PartsOf.behind (h : PartsOf body boundary ps) :
    ∀ p ∈ ps, ∃ pos, PartBehind body (delimiter boundary) pos p := by
  rcases h with ⟨-, rfl⟩ | ⟨pos, -, hfrom⟩
  · simp
  · exact hfrom.behind

/-- The bytes of the parts lie in the body one behind the other. -/
theorem PartsFrom.pieces (hdelim : delim ≠ []) (h : PartsFrom body delim pos ps) :
    Pieces (ps.map fun p => chop (p.slice body)) (body.drop pos) := by
  induction h with
  | nil => exact .nil _
  | @cons pos p ps hp _ ih =>
    have hstart := hp.bodyStart_gt
    have hbehind := ih.behind ((p.slice body).drop (chop (p.slice body)).length ++ delim)
    have hpieces := Pieces.cons ((body.drop pos).take (p.bodyStart - pos)) (chop (p.slice body)) hbehind
    have hgap : (body.drop pos).take (p.bodyStart - pos) ++ body.drop p.bodyStart = body.drop pos := by
      have hsum : pos + (p.bodyStart - pos) = p.bodyStart := by omega
      rw [← hsum, ← List.drop_drop, hsum, List.take_append_drop]
    have hchop : chop (p.slice body) ++ (p.slice body).drop (chop (p.slice body)).length = p.slice body :=
      List.prefix_iff_eq_append.mp (List.take_prefix _ _)
    have hslice : p.slice body ++ body.drop p.next = body.drop p.bodyStart := by
      have hle := hp.next.le
      have hnext := hp.next_le hdelim
      unfold PartSpan.slice
      rw [← List.drop_append_of_le_length, List.take_append_drop]
      rw [List.length_take_of_le (by omega)]
      exact hle
    have hdrop : delim ++ body.drop (p.next + delim.length) = body.drop p.next := by
      rw [← List.drop_drop]
      exact List.prefix_iff_eq_append.mp hp.next.occurs
    rw [List.map_cons, ← hgap, ← hslice]
    rw [List.append_assoc, List.append_assoc, hdrop, ← List.append_assoc (chop _), hchop] at hpieces
    exact hpieces

/-- The data of the parts stands in the body in their order. -/
theorem PartsOf.pieces (h : PartsOf body boundary ps) :
    Pieces (ps.map fun p => chop (p.slice body)) body := by
  rcases h with ⟨-, rfl⟩ | ⟨pos, -, hfrom⟩
  · exact .nil body
  · have hpieces := (hfrom.pieces (delimiter_ne_nil boundary)).behind
      (body.take (pos + (delimiter boundary).length))
    rwa [List.take_append_drop] at hpieces

/-! ## The body as a whole -/

/-- What a body is taken apart into. -/
structure MultipartOk (body boundary : List UInt8) : Prop where
  /-- the loop ends, and its parts are those returned -/
  leaves : ∀ pos, FirstAt (delimiter boundary) body 0 pos →
    ∃ t, Leaves (multipartStep body (delimiter boundary)) { pos := pos + (delimiter boundary).length } t ∧
      parseMultipartMixed body boundary = t.parts
  /-- the bytes between the header block and the next delimiter, less one line terminator -/
  data : ∃ ps, PartsOf body boundary ps ∧
    (parseMultipartMixed body boundary).map MultipartPart.data = ps.map fun p => chop (p.slice body)
  no_delimiter : ∀ part ∈ parseMultipartMixed body boundary, ¬ delimiter boundary <:+: part.data
  pieces : Pieces ((parseMultipartMixed body boundary).map MultipartPart.data) body

/-- The parser returns what the loop leaves with. -/
theorem exists_leaves {start : ℕ} (hfirst : FirstAt (delimiter boundary) body 0 start) :
    ∃ t, Leaves (multipartStep body (delimiter boundary))
      { pos := start + (delimiter boundary).length } t ∧ parseMultipartMixed body boundary = t.parts := by
  have hdelim := delimiter_ne_nil boundary
  refine ⟨_, leaves_multipart hdelim _, ?_⟩
  unfold parseMultipartMixed
  simp only
  rw [(indexOfFrom_eq_some_iff hdelim).mpr hfirst]

/-- **Exactly when no delimiter follows a header block at once** the data are what they must be. For
bodies of fewer than `2^31` bytes, whose positions are `int`s. -/
theorem multipart_ok_iff (body boundary : List UInt8) : MultipartOk body boundary ↔
    ∀ ps, PartsOf body boundary ps → ∀ p ∈ ps, p.bodyStart ≠ p.next := by
  have hdelim := delimiter_ne_nil boundary
  constructor
  · intro hok ps hps p hmem heq
    obtain ⟨pos, hbehind⟩ := hps.behind p hmem
    have hin : readPart body p ∈ parseMultipartMixed body boundary := by
      rw [parseMultipartMixed_eq hps]
      exact List.mem_map_of_mem hmem
    refine hok.no_delimiter _ hin ?_
    rw [readPart_data_empty hdelim hbehind heq, heq]
    exact hbehind.next.occurs.isInfix
  · intro hne
    obtain ⟨ps, hps, -⟩ := existsUnique_partsOf body boundary
    have hdata : (parseMultipartMixed body boundary).map MultipartPart.data =
        ps.map fun p => chop (p.slice body) := by
      rw [parseMultipartMixed_eq hps, List.map_map]
      refine List.map_congr_left fun p hmem => ?_
      obtain ⟨pos, hbehind⟩ := hps.behind p hmem
      have hlt : p.bodyStart < p.next := lt_of_le_of_ne hbehind.next.le (hne ps hps p hmem)
      exact readPart_data hdelim hbehind hlt
    refine ⟨fun _ => exists_leaves, ⟨ps, hps, hdata⟩, fun part hpart => ?_, ?_⟩
    · have hmem : part.data ∈ ps.map fun p => chop (p.slice body) := by
        rw [← hdata]
        exact List.mem_map_of_mem hpart
      obtain ⟨p, hp, heq⟩ := List.mem_map.mp hmem
      obtain ⟨pos, hbehind⟩ := hps.behind p hp
      rw [← heq]
      exact not_infix_slice hdelim hbehind
    · rw [hdata]
      exact hps.pieces

/-- An empty last part without a line before its delimiter. -/
theorem empty_part_reads_delimiter : ¬ ∀ body boundary, MultipartOk body boundary := by
  intro h
  have hno := (h (toUtf8 "--b\r\nContent-Type: a\r\n\r\n--b--") (toUtf8 "b")).no_delimiter
  have hdata : ∃ part ∈ parseMultipartMixed (toUtf8 "--b\r\nContent-Type: a\r\n\r\n--b--") (toUtf8 "b"),
      part.data = delimiter (toUtf8 "b") ++ twoDashes := by decide +kernel
  obtain ⟨part, hpart, heq⟩ := hdata
  refine hno part hpart ?_
  rw [heq]
  exact (List.prefix_append _ _).isInfix

end ShadNet
