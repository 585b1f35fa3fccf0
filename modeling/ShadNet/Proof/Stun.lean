import ShadNet.Proof.DeletePayload
import ShadNet.Spec.Stun

/-!
# Pings

* `onDatagram_eq`: a datagram is a ping, or it does nothing.
* `extIp_ne`: a sender has an address.
* `toIPv4Address_dottedQuad`: an address is read as it is written.
* `ping_registers`: a ping enters its user, and is answered with where it comes from.
-/

namespace ShadNet

open Lib

/-! ## Datagrams -/

/-- The npid of a datagram that is a ping. -/
def pingOf (qt : Qt) (raw : List UInt8) : Option String :=
  let data := stripVportHeader raw
  if data.head? = some 0x01 ∧ 21 ≤ data.length ∧ pingNpid qt data ≠ "" then some (pingNpid qt data)
  else none

/-- **A datagram** is a ping, or nothing. -/
theorem onDatagram_eq (qt : Qt) (udpExt : Table String (String × ℕ)) (raw : List UInt8) (sender : HostAddress)
    (senderPort : UInt16) : onDatagram qt udpExt raw sender senderPort =
      (pingOf qt raw).elim (udpExt, none) fun npid =>
        (udpExt.set npid (extIp sender, senderPort.toNat), some (stunReply sender senderPort)) := by
  unfold onDatagram pingOf
  simp only
  cases hdata : stripVportHeader raw with
  | nil => rfl
  | cons cmd rest =>
    simp only [List.head?_cons, Option.some.injEq]
    by_cases hcmd : cmd = 0x01
    · subst hcmd
      rw [if_pos rfl]
      unfold handleStunPing
      by_cases hlength : (0x01 :: rest).length < 21
      · rw [if_pos hlength, if_neg (by omega)]
        rfl
      · rw [if_neg hlength]
        by_cases hnpid : pingNpid qt (0x01 :: rest) = ""
        · rw [if_pos hnpid, if_neg (fun h => h.2.2 hnpid)]
          rfl
        · rw [if_neg hnpid, if_pos ⟨rfl, by omega, hnpid⟩]
          rfl
    · rw [if_neg hcmd, if_neg (fun h => hcmd h.1)]
      rfl

/-- A dotted quad begins with a digit. -/
theorem dottedQuad_head (addr : ℕ) :
    ∃ d rest, (dottedQuad addr).toList = d :: rest ∧ d.isDigit = true := by
  obtain ⟨b, rest, hsplit⟩ : ∃ b rest, (dottedQuad addr).toList = Nat.toDigits 10 b ++ rest := by
    unfold dottedQuad toBe
    rw [String.toList_ofList]
    simp only [toLe, List.reverse_cons, List.reverse_nil, List.nil_append, List.cons_append,
      List.map_cons, List.map_nil, List.intercalate, List.intersperse, List.flatten_cons]
    exact ⟨_, _, congrArg (· ++ _) Nat.toList_repr⟩
  have hdigit := fun c => Nat.isDigit_of_mem_toDigits (c := c) (n := b) (b := 10) (by decide) (by decide)
  cases hdigits : Nat.toDigits 10 b with
  | nil => exact absurd hdigits Nat.toDigits_ne_nil
  | cons d ds =>
    refine ⟨d, ds ++ rest, by rw [hsplit, hdigits, List.cons_append], hdigit d ?_⟩
    rw [hdigits]
    exact List.mem_cons_self

theorem dottedQuad_ne (addr : ℕ) : (dottedQuad addr).toList ≠ [] := by
  obtain ⟨d, rest, h, -⟩ := dottedQuad_head addr
  rw [h]
  exact List.cons_ne_nil d rest

/-- No dotted quad begins with the prefix of a mapped address. -/
theorem dottedQuad_notPrefix (addr : ℕ) :
    ¬ ipv4MappedPrefix.toList <+: (dottedQuad addr).toList := by
  obtain ⟨d, rest, h, hd⟩ := dottedQuad_head addr
  rw [h]
  rintro ⟨more, hmore⟩
  have hcolon : d = ':' := (List.cons.inj hmore).1.symm
  subst hcolon
  cases hd

theorem ipv4MappedPrefix_length : ipv4MappedPrefix.toList.length = 7 := by decide

theorem extIp_plain {sender : HostAddress} (h : ¬ ipv4MappedPrefix.toList <+: sender.toString.toList) :
    extIp sender = sender.toString := by
  unfold extIp
  simp only
  rw [if_neg, String.ofList_toList]
  rw [List.isPrefixOf_iff_prefix]
  exact h

theorem extIp_mapped {sender : HostAddress} {rest : List Char}
    (h : sender.toString.toList = ipv4MappedPrefix.toList ++ rest) :
    extIp sender = String.ofList rest := by
  unfold extIp
  simp only [h]
  rw [if_pos, List.drop_left' ipv4MappedPrefix_length]
  exact List.isPrefixOf_iff_prefix.mpr (List.prefix_append _ _)

theorem extIp_ipv4 {addr : UInt32} {sender : HostAddress}
    (h : sender = .ipv4 addr ∨ sender = .ipv4Mapped addr) : extIp sender = dottedQuad addr.toNat := by
  rcases h with rfl | rfl
  · exact extIp_plain (dottedQuad_notPrefix addr.toNat)
  · rw [extIp_mapped (String.toList_append ..), String.ofList_toList]

/-- A sender has an address. -/
theorem extIp_ne (sender : HostAddress) : extIp sender ≠ "" := by
  have hne : ∀ addr, dottedQuad addr ≠ "" := by
    intro addr h
    exact dottedQuad_ne addr (congrArg String.toList h)
  cases sender with
  | ipv4 addr =>
    rw [extIp_ipv4 (Or.inl rfl)]
    exact hne _
  | ipv4Mapped addr =>
    rw [extIp_ipv4 (Or.inr rfl)]
    exact hne _
  | ipv6 text written =>
    by_cases hinitial : ipv4MappedPrefix.toList <+: text.toList
    · obtain ⟨rest, hrest⟩ := hinitial
      have hmapped : extIp (.ipv6 text written) = String.ofList rest := extIp_mapped hrest.symm
      rw [hmapped]
      intro h
      have hnil : rest = [] := by simpa using congrArg String.toList h
      rw [hnil, List.append_nil] at hrest
      exact written.2 (String.toList_inj.mp hrest.symm)
    · have hplain : extIp (.ipv6 text written) = text := extIp_plain hinitial
      rw [hplain]
      exact written.1

/-! ## A ping and its answer -/

/-- A ping as a client sends it; `localIp` has four bytes. -/
def stunPing (npid : String) (localIp : List UInt8) : List UInt8 :=
  frameSignaling (0x01 :: (toUtf8 npid ++ List.replicate (16 - (toUtf8 npid).length) 0) ++ localIp)

/-- The number that bytes spell, most significant first. -/
def fromBe (bytes : List UInt8) : ℕ := fromLe bytes.reverse

/-- What Qt promises of letters and numbers. -/
structure Qt.Lawful (qt : Qt) : Prop where
  nul : qt.isLetterOrNumber (Char.ofNat 0) = false
  byteOrderMark : qt.isLetterOrNumber (Char.ofNat 0xFEFF) = false
  trimmed : ∀ s : String, (∀ c ∈ s.toList, qt.isLetterOrNumber c = true ∨ c = '-' ∨ c = '_') →
    qt.trimmed s = s

theorem fromBe_toBe (width n : ℕ) : fromBe (toBe width n) = n % 256 ^ width := by
  unfold fromBe toBe
  rw [List.reverse_reverse, fromLe_toLe]

theorem digits?_toString (n : ℕ) : digits? (toString n).toList = some n := by
  have hdigits : (toString n).toList = Nat.toDigits 10 n := Nat.toList_repr
  rw [hdigits]
  unfold digits?
  split
  · rename_i h
    exact absurd h Nat.toDigits_ne_nil
  · rw [if_pos]
    · exact congrArg some (Nat.ofDigitChars_toDigits (by decide) (by decide))
    · rw [List.all_eq_true]
      intro c hc
      exact Nat.isDigit_of_mem_toDigits (by decide) (by decide) hc

theorem dot_notMem_toString (n : ℕ) : '.' ∉ (toString n).toList := by
  have hdigits : (toString n).toList = Nat.toDigits 10 n := Nat.toList_repr
  rw [hdigits]
  intro h
  have := Nat.isDigit_of_mem_toDigits (by decide) (by decide) h
  cases this

/-- **An address is read as it is written.** -/
theorem toIPv4Address_dottedQuad {addr : ℕ} (h : addr < 2 ^ 32) :
    toIPv4Address (dottedQuad addr) = addr := by
  unfold toIPv4Address dottedQuad
  rw [String.toList_ofList, List.splitOn_intercalate]
  · rw [List.map_map]
    have hbytes : (digits? ∘ fun b : UInt8 => (toString b.toNat).toList) = fun b => some b.toNat := by
      funext b
      exact digits?_toString b.toNat
    rw [hbytes]
    simp only [toBe, toLe, List.reverse_cons, List.reverse_nil, List.nil_append, List.cons_append,
      List.map_cons, List.map_nil, UInt8.toNat_ofNat']
    rw [if_pos (by omega)]
    omega
  · intro l hl
    obtain ⟨b, -, rfl⟩ := List.mem_map.mp hl
    exact dot_notMem_toString b.toNat
  · simp [toBe, toLe]

/-- **What is behind the front** of text that does not begin with a byte order mark. -/
theorem fromUtf8_toUtf8 {s : String} (h : s.toList.head? ≠ some (Char.ofNat 0xFEFF)) :
    fromUtf8 (toUtf8 s) = s := by
  have hdecode : decodeUtf8 (toUtf8 s) = s.toList := by
    exact decodeUtf8_encode s.toList
  unfold fromUtf8
  split
  · -- such a mark is a character of its own
    rename_i rest hbytes
    have hmark : decodeUtf8 (toUtf8 s) = Char.ofNat 0xFEFF :: decodeUtf8 rest := by
      rw [hbytes]
      exact decodeUtf8_encodeChar_append (Char.ofNat 0xFEFF) rest
    rw [hdecode] at hmark
    rw [hmark] at h
    exact absurd rfl h
  · rw [hdecode, String.ofList_toList]

theorem stripVportHeader_frameSignaling (payload : List UInt8) :
    stripVportHeader (frameSignaling payload) = payload := by
  unfold stripVportHeader frameSignaling
  rw [if_neg, if_neg]
  · rfl
  · simp [signalingVportNbo]
  · simp [signalingVportNbo, vportHeaderSize]

variable {qt : Qt} {npid : String}

/-- The characters of a valid npid. -/
theorem isValidNpid_chars (hvalid : isValidNpid qt npid = true) :
    npid ≠ "" ∧ ∀ c ∈ npid.toList, qt.isLetterOrNumber c = true ∨ c = '-' ∨ c = '_' := by
  unfold isValidNpid at hvalid
  simp only [decide_eq_true_eq, List.all_eq_true] at hvalid
  obtain ⟨hmin, -, hchars, -⟩ := hvalid
  refine ⟨?_, fun c hc => ?_⟩
  · rintro rfl
    exact absurd hmin (by decide)
  · rcases hchars c hc with ⟨-, h⟩ | h
    · exact Or.inl h
    · exact Or.inr h

theorem Qt.Lawful.notMem (hqt : qt.Lawful) (hvalid : isValidNpid qt npid = true) {c : Char}
    (hc : c = Char.ofNat 0 ∨ c = Char.ofNat 0xFEFF) : c ∉ npid.toList := by
  intro hmem
  have hno : qt.isLetterOrNumber c = false := by
    rcases hc with rfl | rfl
    · exact hqt.nul
    · exact hqt.byteOrderMark
  rcases (isValidNpid_chars hvalid).2 c hmem with h | rfl | rfl
  · rw [hno] at h
    cases h
  · rcases hc with h | h <;> cases h
  · rcases hc with h | h <;> cases h

/-- **The npid of a ping** is the one that it was made with. -/
theorem pingNpid_stunPing (hqt : qt.Lawful) (hvalid : isValidNpid qt npid = true)
    (hlength : (toUtf8 npid).length ≤ 16) (localIp : List UInt8) :
    pingNpid qt (0x01 :: (toUtf8 npid ++ List.replicate (16 - (toUtf8 npid).length) 0) ++ localIp) =
      npid := by
  have hcut : ((toUtf8 npid ++ List.replicate (16 - (toUtf8 npid).length) 0 ++ localIp).take 16) =
      toUtf8 npid ++ List.replicate (16 - (toUtf8 npid).length) 0 := by
    refine List.take_left' ?_
    rw [List.length_append, List.length_replicate]
    omega
  have hnul : NulFree npid := by
    intro c hc h0
    refine hqt.notMem hvalid (Or.inl rfl) (c := Char.ofNat 0) ?_
    have : c = Char.ofNat 0 := by rw [← h0, Char.ofNat_toNat]
    exact this ▸ hc
  have hwhole : (toUtf8 npid ++ List.replicate (16 - (toUtf8 npid).length) 0).takeWhile (· ≠ 0) =
      toUtf8 npid := by
    rw [List.takeWhile_append_of_pos (by simpa using toUtf8_ne_zero hnul)]
    cases 16 - (toUtf8 npid).length with
    | zero => exact List.append_nil _
    | succ k => exact List.append_nil _
  have hhead : npid.toList.head? ≠ some (Char.ofNat 0xFEFF) := by
    intro h
    exact hqt.notMem hvalid (Or.inr rfl) (List.mem_of_head? h)
  unfold pingNpid
  rw [List.cons_append, List.drop_one, List.tail_cons, hcut, hwhole, fromUtf8_toUtf8 hhead]
  exact hqt.trimmed _ (isValidNpid_chars hvalid).2

/-- **A ping registers** its user under the address that it comes from, and nobody else; and the answer
tells him that address. -/
theorem ping_registers (hqt : qt.Lawful) (hvalid : isValidNpid qt npid = true)
    (hlength : (toUtf8 npid).length ≤ 16) (localIp : List UInt8) (hlocal : localIp.length = 4)
    (addr : UInt32) (sender : HostAddress) (hsender : sender = .ipv4 addr ∨ sender = .ipv4Mapped addr)
    (senderPort : UInt16) (udpExt : Table String (String × ℕ)) :
    let place := dottedQuad addr.toNat
    toIPv4Address place = addr.toNat ∧
    ∃ after reply, onDatagram qt udpExt (stunPing npid localIp) sender senderPort = (after, some reply) ∧
      (∀ other, after.get? other =
        if other = npid then some (place, senderPort.toNat) else udpExt.get? other) ∧
      fromBe ((stripVportHeader reply).take 4) = addr.toNat ∧
      fromBe ((stripVportHeader reply).drop 4) = senderPort.toNat := by
  intro place
  have haddr : toIPv4Address place = addr.toNat := toIPv4Address_dottedQuad addr.toNat_lt
  have hping : pingOf qt (stunPing npid localIp) = some npid := by
    unfold pingOf stunPing
    simp only
    rw [stripVportHeader_frameSignaling, pingNpid_stunPing hqt hvalid hlength, if_pos]
    refine ⟨rfl, ?_, (isValidNpid_chars hvalid).1⟩
    simp only [List.length_append, List.length_cons, List.length_replicate]
    omega
  refine ⟨haddr, _, _, by rw [onDatagram_eq, hping]; rfl, fun other => ?_, ?_, ?_⟩
  · rw [extIp_ipv4 hsender]
    exact Table.get?_set ..
  · unfold stunReply
    rw [stripVportHeader_frameSignaling, extIp_ipv4 hsender, haddr, List.take_left' (by simp [toBe]),
      fromBe_toBe]
    exact Nat.mod_eq_of_lt addr.toNat_lt
  · unfold stunReply
    rw [stripVportHeader_frameSignaling, extIp_ipv4 hsender, haddr, List.drop_left' (by simp [toBe]),
      fromBe_toBe]
    exact Nat.mod_eq_of_lt senderPort.toNat_lt

theorem Qt.ascii_lawful : Qt.ascii.Lawful := by
  refine ⟨by decide, by decide, fun s hs => ?_⟩
  have hblank : ∀ c ∈ s.toList, c.isWhitespace = false := by
    intro c hc
    by_contra hw
    rw [Bool.not_eq_false] at hw
    simp only [Char.isWhitespace, Bool.or_eq_true, decide_eq_true_eq] at hw
    rcases hw with ((rfl | rfl) | rfl) | rfl <;> rcases hs _ hc with h | h | h <;> cases h
  have hdrop : ∀ l : List Char, (∀ c ∈ l, c.isWhitespace = false) → l.dropWhile Char.isWhitespace = l := by
    intro l hl
    cases l with
    | nil => rfl
    | cons c l => exact List.dropWhile_cons_of_neg (by simp [hl c])
  have htrimmed : Qt.ascii.trimmed s = String.ofList
      ((s.toList.dropWhile Char.isWhitespace).reverse.dropWhile Char.isWhitespace).reverse := rfl
  rw [htrimmed, hdrop _ hblank, hdrop _ (by simpa using hblank), List.reverse_reverse, String.ofList_toList]

theorem ping_registers_alice : ∃ after reply,
    onDatagram .ascii ∅ (stunPing "alice" [192, 168, 0, 7]) (.ipv4 0x0A000001) 3658 = (after, some reply) ∧
      after.get? "alice" = some ("10.0.0.1", 3658) ∧
      fromBe ((stripVportHeader reply).take 4) = 0x0A000001 := by
  have hvalid : isValidNpid .ascii "alice" = true := by decide +kernel
  obtain ⟨-, after, reply, heq, hafter, hreply, -⟩ := ping_registers Qt.ascii_lawful hvalid
    (by decide +kernel) [192, 168, 0, 7] rfl 0x0A000001 _ (Or.inl rfl) 3658 ∅
  refine ⟨after, reply, heq, ?_, hreply⟩
  rw [hafter, if_pos rfl]
  decide +kernel

end ShadNet
