import ShadNet.Proof.Multipart
import ShadNet.Proof.RawJson

/-!
# Writing multipart bodies

* `SourcePart`: a part with headers that the parser knows. Its data are any bytes.
* `firstAt_headers`: the header block ends behind the last of its lines.
* `foldl_parseHeader`: the lines give back the values.
* `HasPart.behind`: a part that is written behind a delimiter is the part behind it.
* `parseMultipartMixed_encode`: what is written is read back.
-/

namespace ShadNet

open Lib SummonBroker

/-! ## What is written -/

/-- The headers that the parser keeps. -/
inductive PartHeader where
  | contentType
  | contentDescription
deriving DecidableEq, Repr

/-- The name of a header. -/
def PartHeader.text : PartHeader → List UInt8
  | .contentType => toUtf8 "Content-Type"
  | .contentDescription => toUtf8 "Content-Description"

/-- A part as it is written: one or both headers, in either order, each with a trimmed value in one
line. -/
structure SourcePart where
  headers : List (PartHeader × List UInt8)
  data : List UInt8
  headers_ne_nil : headers ≠ []
  nodup : (headers.map Prod.fst).Nodup
  trim : ∀ h ∈ headers, trimmed h.2 = h.2
  one_line : ∀ h ∈ headers, carriageReturn ∉ h.2 ∧ lineFeed ∉ h.2

/-- A header and its value on one line. -/
def headerLine (h : PartHeader × List UInt8) : List UInt8 := h.1.text ++ toUtf8 ": " ++ h.2

variable {body boundary pre rest : List UInt8} {parts : List SourcePart}

namespace SourcePart

/-- The header's value; empty if the part does not have it. -/
def valueOf (p : SourcePart) (k : PartHeader) : List UInt8 :=
  ((p.headers.find? fun h => h.1 = k).map Prod.snd).getD []

/-- The part as it is returned. -/
def part (p : SourcePart) : MultipartPart := ⟨p.valueOf .contentType, p.valueOf .contentDescription, p.data⟩

/-- A part behind its delimiter. -/
def encode (boundary : List UInt8) (p : SourcePart) : List UInt8 :=
  delimiter boundary ++ crlf ++ (p.headers.flatMap fun h => headerLine h ++ crlf) ++ crlf ++ p.data ++ crlf

end SourcePart

/-- **The multipart encoding** of the parts. -/
def encodeParts (boundary : List UInt8) (parts : List SourcePart) : List UInt8 :=
  parts.flatMap (SourcePart.encode boundary) ++ delimiter boundary ++ twoDashes

/-! ## Blanks -/

/-- Blanks behind a text are trimmed. -/
theorem trimmed_append_blank (l : List UInt8) {ws : List UInt8} (h : ∀ b ∈ ws, isBlank b = true) :
    trimmed (l ++ ws) = trimmed l := by
  unfold trimmed
  rw [List.dropWhile_append]
  split
  · rename_i hempty
    rw [List.isEmpty_iff.mp hempty, List.dropWhile_eq_nil_iff.mpr h]
  · exact rdropWhile_append_all _ h

/-- Blanks before a text are trimmed off. -/
theorem trimmed_blank_append {ws : List UInt8} (l : List UInt8) (h : ∀ b ∈ ws, isBlank b = true) :
    trimmed (ws ++ l) = trimmed l := by
  unfold trimmed
  rw [List.dropWhile_append_of_pos h]

theorem trimmed_rdropWhile (l : List UInt8) : trimmed (l.rdropWhile isBlank) = trimmed l := by
  have hsplit : l.rdropWhile isBlank ++ (l.reverse.takeWhile isBlank).reverse = l := by
    unfold List.rdropWhile
    rw [← List.reverse_append, List.takeWhile_append_dropWhile, List.reverse_reverse]
  have hblank : ∀ b ∈ (l.reverse.takeWhile isBlank).reverse, isBlank b = true := fun b hb =>
    List.mem_takeWhile_imp (List.mem_reverse.mp hb)
  conv_rhs => rw [← hsplit, trimmed_append_blank _ hblank]

theorem rdropWhile_append_cons {p : UInt8 → Bool} {a : UInt8} (l r : List UInt8) (ha : ¬ p a = true) :
    (l ++ a :: r).rdropWhile p = l ++ a :: r.rdropWhile p := by
  induction r using List.reverseRecOn with
  | nil => rw [List.rdropWhile_concat_neg p l a ha, List.rdropWhile_nil]
  | append_singleton r b ih =>
    rw [← List.cons_append, ← List.append_assoc]
    by_cases hb : p b = true
    · rw [List.rdropWhile_concat_pos p _ b hb, List.rdropWhile_concat_pos p r b hb, ih]
    · rw [List.rdropWhile_concat_neg p _ b hb, List.rdropWhile_concat_neg p r b hb]
      simp

/-! ## The header lines -/

/-- The part that has the header as well. -/
def MultipartPart.withHeader (part : MultipartPart) : PartHeader × List UInt8 → MultipartPart
  | (.contentType, v) => { part with contentType := v }
  | (.contentDescription, v) => { part with contentDescription := v }

/-- A line sets its header, also with the carriage return that ends it. -/
theorem parseHeader_line (part : MultipartPart) {h : PartHeader × List UInt8} {ws : List UInt8}
    (htrim : trimmed h.2 = h.2) (hws : ∀ b ∈ ws, isBlank b = true) :
    parseHeader part (headerLine h ++ ws) = part.withHeader h := by
  obtain ⟨k, v⟩ := h
  have hcolon : (0x3A : UInt8) ∉ k.text := by cases k <;> decide
  have hname : trimmed k.text = k.text := by cases k <;> decide
  have hstart : ∀ r, (k.text ++ r).dropWhile isBlank = k.text ++ r := by
    intro r
    cases k <;> rfl
  have hline : trimmed (headerLine (k, v) ++ ws) =
      k.text ++ 0x3A :: (0x20 :: v ++ ws).rdropWhile isBlank := by
    have hsplit : headerLine (k, v) ++ ws = k.text ++ 0x3A :: (0x20 :: v ++ ws) := by
      unfold headerLine
      have hlit : toUtf8 ": " = [0x3A, 0x20] := by decide
      simp [hlit]
    unfold trimmed
    rw [hsplit, hstart]
    exact rdropWhile_append_cons _ _ (by decide)
  have hvalue : trimmed ((0x20 :: v ++ ws).rdropWhile isBlank) = v := by
    rw [trimmed_rdropWhile, trimmed_append_blank _ hws]
    have hspace : ∀ b ∈ [(0x20 : UInt8)], isBlank b = true := List.forall_mem_singleton.mpr rfl
    exact (trimmed_blank_append v hspace).trans htrim
  have hindex : ∀ r, indexOf [0x3A] (k.text ++ 0x3A :: r) = some k.text.length := by
    intro r
    refine indexOf_eq_some_iff.mpr ⟨?_, by simp⟩
    exact (firstAt_append_self [0x3A] r).append_of_not_mem hcolon
  have hdrop : ∀ r : List UInt8, (k.text ++ 0x3A :: r).drop (k.text.length + 1) = r := by
    intro r
    rw [List.drop_length_add_append]
    rfl
  unfold parseHeader
  simp only [hline, hindex, List.take_left, hdrop, hname, hvalue]
  cases k
  · rw [if_pos (by decide)]
    rfl
  · rw [if_neg (by decide), if_pos (by decide)]
    rfl

/-- The header block without the empty line that ends it. -/
def headerText (headers : List (PartHeader × List UInt8)) : List UInt8 :=
  crlf.intercalate (headers.map headerLine)

theorem headerText_cons_cons (h h' : PartHeader × List UInt8) (hs : List (PartHeader × List UInt8)) :
    headerText (h :: h' :: hs) = headerLine h ++ crlf ++ headerText (h' :: hs) :=
  List.intercalate_cons_cons

theorem headerText_singleton (h : PartHeader × List UInt8) : headerText [h] = headerLine h :=
  List.intercalate_singleton

theorem flatMap_headerLine {headers : List (PartHeader × List UInt8)} (hne : headers ≠ []) :
    (headers.flatMap fun h => headerLine h ++ crlf) = headerText headers ++ crlf := by
  induction headers with
  | nil => exact absurd rfl hne
  | cons h hs ih =>
    cases hs with
    | nil => simp [headerText_singleton]
    | cons h' hs =>
      rw [List.flatMap_cons, ih (List.cons_ne_nil _ _), headerText_cons_cons]
      simp only [List.append_assoc]

/-- A header line does not end early. -/
theorem headerLine_not_mem {h : PartHeader × List UInt8} {b : UInt8} (hb : b = carriageReturn ∨ b = lineFeed)
    (hval : b ∉ h.2) : b ∉ headerLine h := by
  have hname : b ∉ h.1.text ++ toUtf8 ": " := by
    rcases hb with rfl | rfl <;> cases h.1 <;> decide
  exact fun hmem => (List.mem_append.mp hmem).elim hname hval

/-- The headers do not begin with an empty line. -/
theorem headerText_head (h : PartHeader × List UInt8) (hs : List (PartHeader × List UInt8)) (l : List UInt8) :
    (headerText (h :: hs) ++ l).head? ≠ some carriageReturn := by
  have hname : ∀ k r, (PartHeader.text k ++ r).head? = some 0x43 := by
    intro k r
    cases k <;> rfl
  have hline : ∃ r, headerText (h :: hs) ++ l = h.1.text ++ r := by
    cases hs with
    | nil => exact ⟨toUtf8 ": " ++ h.2 ++ l, by simp [headerText_singleton, headerLine]⟩
    | cons h' hs =>
      refine ⟨toUtf8 ": " ++ h.2 ++ crlf ++ headerText (h' :: hs) ++ l, ?_⟩
      rw [headerText_cons_cons]
      simp [headerLine]
  obtain ⟨r, hr⟩ := hline
  rw [hr, hname]
  decide

/-- Behind the end of a line the empty line is where it is in the lines that follow. -/
theorem firstAt_crlf {l : List UInt8} {j : ℕ} (hhead : l.head? ≠ some carriageReturn)
    (h : FirstAt (crlf ++ crlf) l 0 j) : FirstAt (crlf ++ crlf) (crlf ++ l) 0 (j + 2) := by
  have hfeed : ¬ OccursAt (crlf ++ crlf) (lineFeed :: l) 0 := fun hoccurs => by
    have hget := hoccurs.getElem? (k := 0) (by decide)
    exact absurd hget (by simp [crlf, carriageReturn, lineFeed])
  have hreturn : ¬ OccursAt (crlf ++ crlf) (carriageReturn :: lineFeed :: l) 0 := fun hoccurs => by
    have hget := hoccurs.getElem? (k := 2) (by decide)
    exact hhead (by simpa [crlf, List.head?_eq_getElem?] using hget)
  exact (firstAt_cons hreturn).mpr ((firstAt_cons hfeed).mpr h)

/-- **The end of the header block.** The first empty line is the one behind the last header. -/
theorem firstAt_headers {headers : List (PartHeader × List UInt8)} (hne : headers ≠ [])
    (hval : ∀ h ∈ headers, carriageReturn ∉ h.2) (rest : List UInt8) :
    FirstAt (crlf ++ crlf) (headerText headers ++ (crlf ++ crlf ++ rest)) 0 (headerText headers).length := by
  induction headers with
  | nil => exact absurd rfl hne
  | cons h hs ih =>
    have hline := headerLine_not_mem (Or.inl rfl) (hval h List.mem_cons_self)
    cases hs with
    | nil =>
      rw [headerText_singleton]
      exact (firstAt_append_self (crlf ++ crlf) rest).append_of_not_mem hline
    | cons h' hs =>
      have hrest := ih (List.cons_ne_nil _ _) fun h hmem => hval h (List.mem_cons_of_mem _ hmem)
      have hfirst := (firstAt_crlf (headerText_head h' hs _) hrest).append_of_not_mem hline
      have hlen : (headerText (h :: h' :: hs)).length =
          (headerLine h).length + ((headerText (h' :: hs)).length + 2) := by
        rw [headerText_cons_cons, List.length_append, List.length_append]
        have htwo : crlf.length = 2 := rfl
        omega
      rw [hlen, headerText_cons_cons, List.append_assoc, List.append_assoc]
      exact hfirst

/-- **The lines give back the values.** -/
theorem foldl_parseHeader {headers : List (PartHeader × List UInt8)} (hne : headers ≠ [])
    (htrim : ∀ h ∈ headers, trimmed h.2 = h.2) (hval : ∀ h ∈ headers, lineFeed ∉ h.2) (part : MultipartPart) :
    ((headerText headers).splitOn lineFeed).foldl parseHeader part =
      headers.foldl MultipartPart.withHeader part := by
  induction headers generalizing part with
  | nil => exact absurd rfl hne
  | cons h hs ih =>
    have hline := headerLine_not_mem (Or.inr rfl) (hval h List.mem_cons_self)
    have hset := fun ws (hws : ∀ b ∈ ws, isBlank b = true) =>
      parseHeader_line part (htrim h List.mem_cons_self) hws
    cases hs with
    | nil =>
      have hlast := hset [] (by simp)
      rw [List.append_nil] at hlast
      rw [headerText_singleton, List.splitOn_eq_singleton hline, List.foldl_cons, hlast]
      rfl
    | cons h' hs =>
      have hcut : headerText (h :: h' :: hs) =
          (headerLine h ++ [carriageReturn]) ++ lineFeed :: headerText (h' :: hs) := by
        rw [headerText_cons_cons]
        simp [crlf]
      have hmem : lineFeed ∉ headerLine h ++ [carriageReturn] := by
        simpa [List.mem_append, not_or] using ⟨hline, by decide⟩
      have hreturn : ∀ b ∈ [carriageReturn], isBlank b = true := List.forall_mem_singleton.mpr rfl
      have hrest := ih (List.cons_ne_nil _ _) (fun h hmem => htrim h (List.mem_cons_of_mem _ hmem))
        (fun h hmem => hval h (List.mem_cons_of_mem _ hmem))
      rw [hcut, List.splitOn_append_cons_self_of_not_mem hmem, List.foldl_cons, hset _ hreturn, hrest]
      rfl

/-- Each header is kept under its name. -/
theorem foldl_withHeader (hs : List (PartHeader × List UInt8)) (hnodup : (hs.map Prod.fst).Nodup)
    (part : MultipartPart) : hs.foldl MultipartPart.withHeader part =
      ⟨((hs.find? fun h => h.1 = .contentType).map Prod.snd).getD part.contentType,
        ((hs.find? fun h => h.1 = .contentDescription).map Prod.snd).getD part.contentDescription,
        part.data⟩ := by
  induction hs generalizing part with
  | nil => rfl
  | cons h hs ih =>
    obtain ⟨k, v⟩ := h
    obtain ⟨hk, hnodup⟩ := List.nodup_cons.mp hnodup
    -- the header is not in the lines behind
    have hnone : (hs.find? fun h => h.1 = k) = none :=
      List.find?_eq_none.mpr fun h hmem heq => hk (List.mem_map.mpr ⟨h, hmem, of_decide_eq_true heq⟩)
    rw [List.foldl_cons, ih hnodup]
    cases k <;> simp [MultipartPart.withHeader, hnone]

/-! ## A part that is written -/

/-- Where a part lies that is written behind `start` bytes and a delimiter. -/
def SourcePart.span (p : SourcePart) (start : ℕ) : PartSpan where
  headerStart := start + 2
  hdrEnd := start + 2 + (headerText p.headers).length
  bodyStart := start + 2 + (headerText p.headers).length + 4
  next := start + 2 + (headerText p.headers).length + 4 + (p.data.length + 2)

/-- What is written of a part behind its delimiter. -/
def SourcePart.text (p : SourcePart) : List UInt8 :=
  crlf ++ (headerText p.headers ++ (crlf ++ crlf ++ (p.data ++ crlf)))

/-- A part stands behind its delimiter. -/
theorem SourcePart.encode_eq (p : SourcePart) : p.encode boundary = delimiter boundary ++ p.text := by
  unfold SourcePart.encode SourcePart.text
  rw [flatMap_headerLine p.headers_ne_nil]
  simp only [List.append_assoc]

/-- A delimiter has no end of a line in it. -/
theorem not_mem_delimiter (hcr : carriageReturn ∉ boundary) (hlf : lineFeed ∉ boundary) :
    ∀ a ∈ crlf, a ∉ delimiter boundary := by
  intro a ha hmem
  have hdash : a ∉ twoDashes := by
    rcases List.mem_pair.mp ha with rfl | rfl <;> decide
  have hbound : a ∉ boundary := by
    rcases List.mem_pair.mp ha with rfl | rfl <;> assumption
  exact (List.mem_append.mp hmem).elim hdash hbound

/-- A body that has the part behind `pre`, and a delimiter behind the part. -/
def HasPart (body delim pre rest : List UInt8) (p : SourcePart) : Prop :=
  body = pre ++ (p.text ++ (delim ++ rest))

variable {delim : List UInt8} {p : SourcePart}

namespace HasPart

/-- Where the headers of a part stand. -/
theorem header_eq (h : HasPart body delim pre rest p) : body =
    (pre ++ crlf) ++ (headerText p.headers ++ (crlf ++ crlf ++ (p.data ++ crlf ++ (delim ++ rest)))) := by
  rw [h, SourcePart.text]
  simp only [List.append_assoc]

/-- The data of a part stands between its headers and the next delimiter. -/
theorem data_eq (h : HasPart body delim pre rest p) : body =
    (pre ++ crlf ++ headerText p.headers ++ (crlf ++ crlf)) ++ (p.data ++ crlf ++ (delim ++ rest)) := by
  rw [h.header_eq]
  simp only [List.append_assoc]

theorem data_start (pre : List UInt8) (p : SourcePart) :
    (pre ++ crlf ++ headerText p.headers ++ (crlf ++ crlf)).length = (p.span pre.length).bodyStart := by
  simp only [List.length_append]
  rfl

theorem occursAt_crlf (h : HasPart body delim pre rest p) : OccursAt crlf body pre.length := by
  rw [h.header_eq]
  exact occursAt_append_length _ _ _

/-- The next delimiter is the first behind the data. -/
theorem firstAt_next (h : HasPart body delim pre rest p) (hdelim : delim ≠ [])
    (hdisj : ∀ a ∈ crlf, a ∉ delim) (hdata : ¬ delim <:+: p.data) :
    FirstAt delim body (p.span pre.length).bodyStart (p.span pre.length).next := by
  have hbehind : FirstAt delim (p.data ++ crlf ++ (delim ++ rest)) 0 (p.data ++ crlf).length :=
    .behind hdelim (List.cons_ne_nil _ _) hdata hdisj
  have hfirst := hbehind.append_left (pre ++ crlf ++ headerText p.headers ++ (crlf ++ crlf))
  rw [← h.data_eq, data_start, List.length_append] at hfirst
  exact hfirst

/-- **What is written behind a delimiter** is the part there. -/
theorem behind (h : HasPart body delim pre rest p) (hdelim : delim ≠ [])
    (hdisj : ∀ a ∈ crlf, a ∉ delim) (hdata : ¬ delim <:+: p.data) :
    PartBehind body delim pre.length (p.span pre.length) := by
  have hstart := h.occursAt_crlf
  refine ⟨?_, ?_, ?_, Or.inl ⟨?_, rfl⟩, h.firstAt_next hdelim hdisj hdata⟩
  · have hlen := hstart.le_length (List.cons_ne_nil _ _)
    have htwo : crlf.length = 2 := rfl
    omega
  · intro hclose
    have hget := hclose.getElem? (k := 0) (by decide)
    rw [hstart.getElem? (k := 0) (by decide)] at hget
    cases hget
  · unfold headerStartAt
    rw [if_pos ((mid_two rfl _).mpr hstart)]
    rfl
  · have hfirst := (firstAt_headers p.headers_ne_nil (fun h hmem => (p.one_line h hmem).1)
      (p.data ++ crlf ++ (delim ++ rest))).append_left (pre ++ crlf)
    rw [← h.header_eq, List.length_append] at hfirst
    exact hfirst

/-- The data is cut out with the end of its line. -/
theorem slice_eq (h : HasPart body delim pre rest p) : (p.span pre.length).slice body = p.data ++ crlf := by
  have hnext : (p.span pre.length).next =
      ((pre ++ crlf ++ headerText p.headers ++ (crlf ++ crlf)) ++ (p.data ++ crlf)).length := by
    rw [List.length_append, data_start, List.length_append]
    rfl
  have hcut : body = ((pre ++ crlf ++ headerText p.headers ++ (crlf ++ crlf)) ++ (p.data ++ crlf)) ++
      (delim ++ rest) := by
    rw [List.append_assoc _ (p.data ++ crlf)]
    exact h.data_eq
  unfold PartSpan.slice
  rw [hnext, hcut, List.take_left, ← data_start, List.drop_left]

/-- The headers are cut out as they were written. -/
theorem headers_eq (h : HasPart body delim pre rest p) :
    mid body (p.span pre.length).headerStart
      (((p.span pre.length).hdrEnd : ℤ) - (p.span pre.length).headerStart) = headerText p.headers := by
  have hlen : (((p.span pre.length).hdrEnd : ℤ) - (p.span pre.length).headerStart) =
      (headerText p.headers).length := by
    simp only [SourcePart.span]
    omega
  have hstart : (p.span pre.length).headerStart = (pre ++ crlf).length := by
    rw [List.length_append]
    rfl
  unfold mid
  rw [hlen, hstart, h.header_eq, if_neg, List.drop_left, Int.toNat_natCast, List.take_left]
  have hle := (List.prefix_append (headerText p.headers)
    (crlf ++ crlf ++ (p.data ++ crlf ++ (delim ++ rest)))).length_le
  rw [List.length_append]
  omega

end HasPart

/-- A line terminator that is written is the one that is left out. -/
theorem chop_append_crlf (l : List UInt8) : chop (l ++ crlf) = l := by
  have hterm : terminatorLength (l ++ crlf) = crlf.length := if_pos (List.suffix_append l crlf)
  unfold chop
  rw [hterm, List.length_append, Nat.add_sub_cancel, List.take_left]

/-- **A part that stands in the body** is read back. -/
theorem HasPart.readPart_eq (h : HasPart body delim pre rest p) (hdelim : delim ≠ [])
    (hdisj : ∀ a ∈ crlf, a ∉ delim) (hdata : ¬ delim <:+: p.data) :
    readPart body (p.span pre.length) = p.part := by
  have hbehind := h.behind hdelim hdisj hdata
  have hlt : (p.span pre.length).bodyStart < (p.span pre.length).next := by
    simp only [SourcePart.span]
    omega
  have hread := readPart_data hdelim hbehind hlt
  rw [readPart_data_eq, h.slice_eq, chop_append_crlf] at hread
  unfold readPart
  simp only [h.headers_eq, hread]
  rw [foldl_parseHeader p.headers_ne_nil p.trim (fun h hmem => (p.one_line h hmem).2),
    foldl_withHeader _ p.nodup]
  rfl

/-! ## All parts -/

theorem exists_encodeParts (boundary : List UInt8) (parts : List SourcePart) :
    ∃ rest, encodeParts boundary parts = delimiter boundary ++ rest := by
  cases parts with
  | nil => exact ⟨twoDashes, rfl⟩
  | cons p parts =>
    refine ⟨p.text ++ encodeParts boundary parts, ?_⟩
    unfold encodeParts
    rw [List.flatMap_cons, p.encode_eq]
    simp only [List.append_assoc]

/-- A body with one more part before the others. -/
theorem encodeParts_cons (p : SourcePart) (parts : List SourcePart) :
    encodeParts boundary (p :: parts) = delimiter boundary ++ (p.text ++ encodeParts boundary parts) := by
  unfold encodeParts
  rw [List.flatMap_cons, p.encode_eq]
  simp only [List.append_assoc]

/-- The parts that are written behind any bytes. -/
theorem exists_partsFrom_encode (hdisj : ∀ a ∈ crlf, a ∉ delimiter boundary)
    (hdata : ∀ p ∈ parts, ¬ delimiter boundary <:+: p.data) (pre : List UInt8)
    (hbody : body = pre ++ encodeParts boundary parts) :
    ∃ ps, PartsFrom body (delimiter boundary) (pre.length + (delimiter boundary).length) ps ∧
      ps.map (readPart body) = parts.map SourcePart.part := by
  have hdelim := delimiter_ne_nil boundary
  induction parts generalizing pre with
  | nil =>
    refine ⟨[], .nil fun p hp => hp.open_ ?_, rfl⟩
    have hclose : body = pre ++ delimiter boundary ++ twoDashes ++ [] := by
      rw [hbody, encodeParts]
      simp
    rw [hclose, ← List.length_append]
    exact occursAt_append_length _ _ _
  | cons p parts ih =>
    obtain ⟨rest, hrest⟩ := exists_encodeParts boundary parts
    have hpart : HasPart body (delimiter boundary) (pre ++ delimiter boundary) rest p := by
      unfold HasPart
      rw [hbody, encodeParts_cons, hrest, List.append_assoc]
    have hp := hdata p List.mem_cons_self
    obtain ⟨ps, hps, hmap⟩ := ih (fun p hmem => hdata p (List.mem_cons_of_mem _ hmem))
      (pre ++ delimiter boundary ++ p.text) (by rw [hbody, encodeParts_cons]; simp only [List.append_assoc])
    have hnext : (p.span (pre ++ delimiter boundary).length).next =
        (pre ++ delimiter boundary ++ p.text).length := by
      simp only [SourcePart.span, SourcePart.text, List.length_append]
      have htwo : crlf.length = 2 := rfl
      omega
    have hfrom := PartsFrom.cons (hpart.behind hdelim hdisj hp) (hnext ▸ hps)
    rw [List.length_append] at hfrom
    refine ⟨_, hfrom, ?_⟩
    rw [List.map_cons, List.map_cons, hmap, ← List.length_append, hpart.readPart_eq hdelim hdisj hp]

/-- **What is written is read back**, whatever the data are, as long as the body has fewer than `2^31`
bytes. -/
theorem parseMultipartMixed_encode (hcr : carriageReturn ∉ boundary) (hlf : lineFeed ∉ boundary)
    (hdata : ∀ p ∈ parts, ¬ delimiter boundary <:+: p.data) :
    parseMultipartMixed (encodeParts boundary parts) boundary = parts.map SourcePart.part := by
  obtain ⟨rest, hrest⟩ := exists_encodeParts boundary parts
  have hfirst : FirstAt (delimiter boundary) (encodeParts boundary parts) 0 0 := by
    rw [hrest]
    exact firstAt_append_self _ _
  obtain ⟨ps, hps, hmap⟩ := exists_partsFrom_encode (not_mem_delimiter hcr hlf) hdata []
    (List.nil_append _).symm
  rw [List.length_nil] at hps
  rw [parseMultipartMixed_eq (Or.inr ⟨0, hfirst, hps⟩), hmap]

/-- Data that end like a header block, and none. -/
def createParts : List SourcePart :=
  [⟨[(.contentType, toUtf8 "text/plain"), (.contentDescription, toUtf8 "session-data")],
      toUtf8 "a\r\n\r\n", by decide, by decide, by decide, by decide⟩,
    ⟨[(.contentDescription, toUtf8 "session-image")], [], by decide, by decide, by decide, by decide⟩]

theorem parseMultipartMixed_encode_create :
    (∀ p ∈ createParts, ¬ delimiter (toUtf8 "b") <:+: p.data) ∧
      parseMultipartMixed (encodeParts (toUtf8 "b") createParts) (toUtf8 "b") =
        [⟨toUtf8 "text/plain", toUtf8 "session-data", toUtf8 "a\r\n\r\n"⟩,
          ⟨[], toUtf8 "session-image", []⟩] := by
  have hdata : ∀ p ∈ createParts, ¬ delimiter (toUtf8 "b") <:+: p.data := by decide
  refine ⟨hdata, ?_⟩
  rw [parseMultipartMixed_encode (by decide) (by decide) hdata]
  rfl

end ShadNet
