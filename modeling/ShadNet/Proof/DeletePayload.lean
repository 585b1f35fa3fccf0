import ShadNet.Proof.WebPush

/-!
# Strings in payloads

`appendCStr` writes UTF-8 and `getString` reads one character for each byte.

* `fromLatin1_toUtf8_iff`: the two agree on ASCII text only.
* `getString_cstr`: what `getString` makes of a string that was appended.
* `cstr_delete_iff`: it is read back, and an account that was created can be deleted with its npid and
  its password, exactly when they are ASCII and no position passes the range of an `int`.
-/

namespace ShadNet

open Lib

variable {outside : ℤ → UInt8} {s npid password : String} {l before after : List UInt8} {empty : Bool}

/-! ## UTF-8 and Latin-1 -/

/-- No character is NUL. -/
def NulFree (s : String) : Prop := ∀ c ∈ s.toList, c.toNat ≠ 0

/-- All characters are in the ASCII range. -/
def IsAscii (s : String) : Prop := ∀ c ∈ s.toList, c.toNat < 0x80

instance (s : String) : Decidable (NulFree s) := List.decidableBAll _ s.toList

instance (s : String) : Decidable (IsAscii s) := List.decidableBAll _ s.toList

/-- The bytes of a text without NUL are not zero. -/
theorem toUtf8_ne_zero (h : NulFree s) : ∀ b ∈ toUtf8 s, b ≠ 0 := by
  intro b hb hzero
  obtain ⟨c, hc, hbc⟩ := List.mem_flatMap.mp hb
  subst hzero
  have := mem_utf8EncodeChar hbc (by decide)
  exact h c hc this.symm

theorem toUtf8_ne_nil (h : s ≠ "") : toUtf8 s ≠ [] := by
  intro hnil
  exact h (toUtf8_injective (hnil.trans rfl))

/-- ASCII characters are those with one byte. -/
theorem utf8Size_eq_one_iff (c : Char) : c.utf8Size = 1 ↔ c.toNat < 0x80 := by
  rw [Char.utf8Size_eq_one_iff, UInt32.le_iff_toNat_le]
  have h1 : c.toNat = c.val.toNat := rfl
  have h2 : (127 : UInt32).toNat = 127 := rfl
  omega

/-- An ASCII character is one byte, and that byte is the character. -/
theorem utf8EncodeChar_ascii {c : Char} (h : c.toNat < 0x80) :
    (String.utf8EncodeChar c).map (fun b => Char.ofNat b.toNat) = [c] := by
  have hc : c.val.toNat = c.toNat := rfl
  have hbyte : (UInt8.ofNat c.toNat).toNat = c.toNat := by
    rw [UInt8.toNat_ofNat']
    omega
  have hencode : String.utf8EncodeChar c = [UInt8.ofNat c.toNat] := by
    rw [String.utf8EncodeChar_eq_singleton ((utf8Size_eq_one_iff c).mpr h)]
    rfl
  rw [hencode, List.map_singleton, hbyte, Char.ofNat_toNat]

theorem length_le_utf8 (cs : List Char) : cs.length ≤ (utf8 cs).length := by
  induction cs with
  | nil => exact le_rfl
  | cons c cs ih =>
    have hpos := c.utf8Size_pos
    rw [utf8_cons, List.length_append, String.length_utf8EncodeChar, List.length_cons]
    omega

/-- Text that is no longer in bytes than in characters. -/
theorem ascii_of_length {cs : List Char} (h : (utf8 cs).length = cs.length) :
    ∀ c ∈ cs, c.toNat < 0x80 := by
  induction cs with
  | nil => exact List.forall_mem_nil _
  | cons c cs ih =>
    have hpos := c.utf8Size_pos
    have hle := length_le_utf8 cs
    rw [utf8_cons, List.length_append, String.length_utf8EncodeChar, List.length_cons] at h
    intro d hd
    rcases List.mem_cons.mp hd with rfl | hd
    · exact (utf8Size_eq_one_iff d).mp (by omega)
    · exact ih (by omega) d hd

/-- ASCII text read as Latin-1 is itself. -/
theorem map_utf8_ascii {cs : List Char} (h : ∀ c ∈ cs, c.toNat < 0x80) :
    (utf8 cs).map (fun b => Char.ofNat b.toNat) = cs := by
  induction cs with
  | nil => rfl
  | cons c cs ih =>
    rw [utf8_cons, List.map_append, utf8EncodeChar_ascii (h c List.mem_cons_self),
      ih fun d hd => h d (List.mem_cons_of_mem c hd), List.singleton_append]

/-- **UTF-8 read as Latin-1** is the same text if and only if it is ASCII. -/
theorem fromLatin1_toUtf8_iff (s : String) : fromLatin1 (toUtf8 s) = s ↔ IsAscii s := by
  constructor
  · intro h
    refine ascii_of_length ?_
    have hlen := congrArg (fun t : String => t.toList.length) h
    simpa [fromLatin1, toUtf8] using hlen
  · intro h
    have hchars : (toUtf8 s).map (fun b => Char.ofNat b.toNat) = s.toList := map_utf8_ascii h
    unfold fromLatin1
    rw [hchars, String.ofList_toList]

/-! ## The reader -/

/-- A text ends at its zero byte. -/
theorem takeWhile_cstr (hl : ∀ b ∈ l, b ≠ 0) (after : List UInt8) :
    (l ++ 0 :: after).takeWhile (· ≠ 0) = l := by
  rw [List.takeWhile_append_of_pos fun b hb => by simpa using hl b hb]
  simp

/-- Where `getString` stops on a string that was appended. -/
theorem scanString_cstr (after : List UInt8) (hl : ∀ b ∈ l, b ≠ 0) {p : ℤ} (hp : 0 ≤ p) (hp' : p < 2 ^ 31) :
    StreamExtractor.scanString (l ++ 0 :: after) p =
      if p + l.length < 2 ^ 31 then p + l.length else -2 ^ 31 := by
  have htake := takeWhile_cstr hl after
  by_cases hfit : p + l.length < 2 ^ 31
  · rw [if_pos hfit, StreamExtractor.scanString_of_lt _ hp (by rw [htake]; exact hfit), htake]
  · rw [if_neg hfit, StreamExtractor.scanString_of_ge _ hp hp' (by rw [htake]; omega)]

theorem drop_cstr : (before ++ (l ++ [0]) ++ after).drop before.length = l ++ 0 :: after := by
  rw [List.append_assoc, List.drop_left]
  simp

/-- **`getString` on a string that was appended**, as long as its end is in the range. -/
theorem getString_cstr (before after : List UInt8) (empty : Bool) (hl : ∀ b ∈ l, b ≠ 0)
    (hfit : before.length + l.length < 2 ^ 31) (hempty : empty = true ∨ l ≠ []) :
    (readerAt (before ++ (l ++ [0]) ++ after) before.length).getString empty =
      (⟨before ++ (l ++ [0]) ++ after, wrap32 (before.length + l.length + 1), false⟩,
        some ⟨before.length, l.length⟩) := by
  have hscan := scanString_cstr after hl (Int.natCast_nonneg before.length) (by omega)
  have hfit' : (before.length : ℤ) + l.length < 2 ^ 31 := by omega
  rw [if_pos hfit'] at hscan
  have hin : ¬ ((before ++ (l ++ [0]) ++ after).length : ℤ) ≤ before.length + l.length := by
    simp only [List.length_append, List.length_singleton]
    omega
  have hlen : ((before.length : ℤ) + l.length - before.length).toNat = l.length := by omega
  have hflag : (!empty && decide ((before.length : ℤ) + l.length = before.length)) = false := by
    rcases hempty with rfl | hne
    · rfl
    · have hpos := List.length_pos_of_ne_nil hne
      have : ¬ ((before.length : ℤ) + l.length = before.length) := by omega
      simp [this]
  unfold StreamExtractor.getString
  simp only [readerAt, Int.toNat_natCast, drop_cstr, hscan]
  rw [if_neg hin, hlen, hflag]
  rfl

/-- One whose end is not in the range is read as empty. -/
theorem getString_cstr_long (before after : List UInt8) (empty : Bool) (hl : ∀ b ∈ l, b ≠ 0)
    (hp : before.length < 2 ^ 31) (hlong : ¬ before.length + l.length < 2 ^ 31) :
    (readerAt (before ++ (l ++ [0]) ++ after) before.length).getString empty =
      (⟨before ++ (l ++ [0]) ++ after, -2 ^ 31 + 1, false⟩, some ⟨before.length, 0⟩) := by
  have hscan := scanString_cstr after hl (Int.natCast_nonneg before.length) (by omega)
  have hlong' : ¬ (before.length : ℤ) + l.length < 2 ^ 31 := by omega
  rw [if_neg hlong'] at hscan
  have hin : ¬ ((before ++ (l ++ [0]) ++ after).length : ℤ) ≤ -2 ^ 31 := by omega
  have hlen : (-2 ^ 31 - (before.length : ℤ)).toNat = 0 := by omega
  have hwrap : wrap32 (-2 ^ 31 + 1) = -2 ^ 31 + 1 := by decide
  unfold StreamExtractor.getString
  simp only [readerAt, Int.toNat_natCast, drop_cstr, hscan]
  rw [if_neg hin, hlen, hwrap]
  simp

/-- The bytes of a string that was appended. -/
theorem readBytes_cstr (outside : ℤ → UInt8) (before after l : List UInt8) :
    readBytes outside (before ++ (l ++ [0]) ++ after) (some ⟨before.length, l.length⟩) = l := by
  have hsplit : before ++ (l ++ [0]) ++ after = before ++ l ++ ([0] ++ after) := by simp
  rw [hsplit]
  exact readBytes_readerAt _ List.length_append.symm

theorem readBytes_empty (outside : ℤ → UInt8) (data : List UInt8) (p : ℤ) :
    readBytes outside data (some ⟨p, 0⟩) = [] := rfl

/-- From a position that has wrapped nothing is read. -/
theorem getString_wrapped {data : List UInt8} (hdata : data ≠ []) {p : ℤ} (hp : p < 0) :
    ((⟨data, p, false⟩ : StreamExtractor).getString empty).2 = some ⟨p, 0⟩ := by
  have hdrop : data.drop p.toNat = data := by rw [Int.toNat_of_nonpos (by omega), List.drop_zero]
  have hscan : StreamExtractor.scanString data p = p := by
    cases data with
    | nil => exact absurd rfl hdata
    | cons b data => rw [StreamExtractor.scanString, if_pos (Or.inl hp)]
  unfold StreamExtractor.getString
  simp only [hdrop, hscan]
  rw [if_neg (by omega), Int.sub_self]
  rfl

/-! ## `getString` after `appendCStr` -/

/-- `getString` gives the string back, and stands behind it without an error. -/
def ReadBack (outside : ℤ → UInt8) (empty : Bool) (s : String) (before after : List UInt8) : Prop :=
  (readString outside empty).run (readerAt (before ++ appendCStr [] s ++ after) before.length) =
    (s, readerAt (before ++ appendCStr [] s ++ after) (before ++ appendCStr [] s).length)

theorem appendCStr_eq (buf : List UInt8) (s : String) : appendCStr buf s = buf ++ (toUtf8 s ++ [0]) :=
  List.append_assoc buf _ _

/-- A text is read back exactly if it is ASCII and its end has a position. -/
theorem readBack_iff (hs : NulFree s) (hempty : empty = true ∨ s ≠ "") (hp : before.length < 2 ^ 31) :
    ReadBack outside empty s before after ↔
      IsAscii s ∧ before.length + (toUtf8 s).length + 1 < 2 ^ 31 := by
  have hl := toUtf8_ne_zero hs
  have hrun : (readString outside empty).run
      (readerAt (before ++ (toUtf8 s ++ [0]) ++ after) before.length) =
      (fromLatin1 (readBytes outside (before ++ (toUtf8 s ++ [0]) ++ after)
          ((readerAt (before ++ (toUtf8 s ++ [0]) ++ after) before.length).getString empty).2),
        ((readerAt (before ++ (toUtf8 s ++ [0]) ++ after) before.length).getString empty).1) := rfl
  have hbehind : (before ++ (toUtf8 s ++ [0])).length = before.length + (toUtf8 s).length + 1 := by
    simp only [List.length_append, List.length_singleton]
    omega
  unfold ReadBack
  rw [appendCStr_eq, List.nil_append, hrun, hbehind]
  by_cases hfit : before.length + (toUtf8 s).length < 2 ^ 31
  · have hne : empty = true ∨ toUtf8 s ≠ [] := hempty.imp_right toUtf8_ne_nil
    rw [getString_cstr before after empty hl hfit hne, readBytes_cstr, Prod.mk.injEq,
      fromLatin1_toUtf8_iff, and_congr_right_iff]
    intro _
    by_cases hbound : before.length + (toUtf8 s).length + 1 < 2 ^ 31
    · have hwrap : wrap32 (before.length + (toUtf8 s).length + 1) =
          before.length + (toUtf8 s).length + 1 := wrap32_of_lt (by omega) (by omega)
      rw [hwrap]
      simpa [readerAt] using hbound
    · have hwrap : wrap32 (before.length + (toUtf8 s).length + 1) =
          before.length + (toUtf8 s).length + 1 - 2 ^ 32 := wrap32_of_ge (by omega) (by omega)
      rw [hwrap]
      refine iff_of_false (fun h => ?_) hbound
      have hpos := congrArg StreamExtractor.pos h
      simp only [readerAt] at hpos
      omega
  · rw [getString_cstr_long before after empty hl hp hfit]
    refine iff_of_false (fun h => ?_) fun h => by omega
    have hpos := congrArg StreamExtractor.pos (Prod.mk.inj h).2
    simp only [readerAt] at hpos
    omega

/-! ## Deleting an account -/

/-- The payload of `Delete`. -/
def deletePayload (npid password : String) : List UInt8 := appendCStr (appendCStr [] npid) password

theorem decodeDelete_eq (outside : ℤ → UInt8) (payload : List UInt8) : decodeDelete outside payload =
    if (((readerAt payload 0).getString false).1.getString false).1.error then none
    else some (fromLatin1 (readBytes outside payload ((readerAt payload 0).getString false).2),
      fromLatin1 (readBytes outside payload
        (((readerAt payload 0).getString false).1.getString false).2)) := rfl

/-- What cannot be read is no string. -/
theorem decodeDelete_ne {outside : ℤ → UInt8} {payload : List UInt8} {p : ℤ} (hs : password ≠ "")
    (h : (((readerAt payload 0).getString false).1.getString false).2 = some ⟨p, 0⟩) :
    decodeDelete outside payload ≠ some (npid, password) := by
  rw [decodeDelete_eq, h, readBytes_empty]
  split
  · simp
  · intro heq
    exact hs (Prod.mk.inj (Option.some.inj heq)).2.symm

theorem deletePayload_eq (npid password : String) : deletePayload npid password =
    (toUtf8 npid ++ [0]) ++ (toUtf8 password ++ [0]) ++ [] := by
  simp [deletePayload, appendCStr]

/-- The first string, if its end is in the range. -/
theorem getString_npid (hnpid : NulFree npid) (hn : npid ≠ "") (hfit : (toUtf8 npid).length < 2 ^ 31)
    (password : String) : (readerAt (deletePayload npid password) 0).getString false =
      (⟨deletePayload npid password, wrap32 ((toUtf8 npid).length + 1), false⟩,
        some ⟨0, (toUtf8 npid).length⟩) := by
  have h := getString_cstr [] (toUtf8 password ++ [0]) false (toUtf8_ne_zero hnpid) (by simpa using hfit)
    (Or.inr (toUtf8_ne_nil hn))
  rw [deletePayload_eq, List.append_nil]
  simpa using h

/-- Where the second string starts. -/
theorem reader_password (hbound : (toUtf8 npid).length + 1 < 2 ^ 31) (password : String) :
    (⟨deletePayload npid password, wrap32 ((toUtf8 npid).length + 1), false⟩ : StreamExtractor) =
      readerAt ((toUtf8 npid ++ [0]) ++ (toUtf8 password ++ [0]) ++ []) (toUtf8 npid ++ [0]).length := by
  have hwrap : wrap32 ((toUtf8 npid).length + 1) = ((toUtf8 npid ++ [0]).length : ℕ) := by
    rw [wrap32_of_lt (by omega) (by omega), List.length_append, List.length_singleton]
    omega
  rw [hwrap, deletePayload_eq]
  rfl

theorem length_cstr (s : String) : (toUtf8 s ++ [0]).length = (toUtf8 s).length + 1 := by simp

/-- In the range both strings are read byte by byte. -/
theorem decodeDelete_of_fits (hnpid : NulFree npid) (hpassword : NulFree password) (hn : npid ≠ "")
    (hp : password ≠ "") (hfit : (toUtf8 npid).length + 1 + (toUtf8 password).length < 2 ^ 31) :
    decodeDelete outside (deletePayload npid password) =
      some (fromLatin1 (toUtf8 npid), fromLatin1 (toUtf8 password)) := by
  have hget := getString_npid hnpid hn (by omega) password
  have hget' := getString_cstr (toUtf8 npid ++ [0]) [] false (toUtf8_ne_zero hpassword)
    (by rw [length_cstr]; exact hfit) (Or.inr (toUtf8_ne_nil hp))
  have hbytes : readBytes outside (deletePayload npid password) (some ⟨0, (toUtf8 npid).length⟩) =
      toUtf8 npid := by
    rw [deletePayload_eq, List.append_nil]
    exact readBytes_cstr outside [] _ _
  have hbytes' : readBytes outside (deletePayload npid password)
      (some ⟨((toUtf8 npid ++ [0]).length : ℕ), (toUtf8 password).length⟩) = toUtf8 password := by
    rw [deletePayload_eq]
    exact readBytes_cstr outside _ [] _
  rw [decodeDelete_eq, hget, reader_password (by omega), hget', hbytes, hbytes']
  rfl

/-- Outside that condition one of the two strings is lost. -/
theorem decodeDelete_of_not_fits (hnpid : NulFree npid) (hpassword : NulFree password) (hn : npid ≠ "")
    (hp : password ≠ "") (hfit : ¬ (toUtf8 npid).length + 1 + (toUtf8 password).length < 2 ^ 31) :
    decodeDelete outside (deletePayload npid password) ≠ some (npid, password) := by
  by_cases hfirst : (toUtf8 npid).length < 2 ^ 31
  · have hget := getString_npid hnpid hn hfirst password
    by_cases hbound : (toUtf8 npid).length + 1 < 2 ^ 31
    · -- the end of the second string is not in the range
      have hpos := length_cstr npid
      have hget' := getString_cstr_long (toUtf8 npid ++ [0]) [] false (toUtf8_ne_zero hpassword)
        (by omega) (by omega)
      refine decodeDelete_ne (p := (toUtf8 npid ++ [0]).length) hp ?_
      rw [hget, reader_password hbound, hget']
    · -- the position has wrapped
      have hwrap : wrap32 ((toUtf8 npid).length + 1) = (toUtf8 npid).length + 1 - 2 ^ 32 :=
        wrap32_of_ge (by omega) (by omega)
      have hne : deletePayload npid password ≠ [] := by simp [deletePayload_eq]
      refine decodeDelete_ne (p := wrap32 ((toUtf8 npid).length + 1)) hp ?_
      rw [hget]
      exact getString_wrapped hne (by omega)
  · -- the end of the first string is not in the range
    have hget : ((readerAt (deletePayload npid password) 0).getString false).2 = some ⟨0, 0⟩ := by
      have h := getString_cstr_long [] (toUtf8 password ++ [0]) false (toUtf8_ne_zero hnpid)
        (by decide) (by simpa using hfirst)
      rw [deletePayload_eq, List.append_nil]
      exact congrArg Prod.snd h
    intro h
    rw [decodeDelete_eq, hget, readBytes_empty] at h
    split at h
    · cases h
    · exact hn (Prod.mk.inj (Option.some.inj h)).1.symm

/-- **The two strings of `Delete`** are decoded as they were when they are ASCII and in the range. -/
theorem decodeDelete_iff (hnpid : NulFree npid) (hpassword : NulFree password) (hn : npid ≠ "")
    (hp : password ≠ "") : decodeDelete outside (deletePayload npid password) = some (npid, password) ↔
      IsAscii npid ∧ IsAscii password ∧ (toUtf8 npid).length + 1 + (toUtf8 password).length < 2 ^ 31 := by
  by_cases hfit : (toUtf8 npid).length + 1 + (toUtf8 password).length < 2 ^ 31
  · rw [decodeDelete_of_fits hnpid hpassword hn hp hfit]
    simp only [Option.some.injEq, Prod.mk.injEq, fromLatin1_toUtf8_iff]
    exact ⟨fun h => ⟨h.1, h.2, hfit⟩, fun h => ⟨h.1, h.2.1⟩⟩
  · exact iff_of_false (decodeDelete_of_not_fits hnpid hpassword hn hp hfit) fun h => hfit h.2.2

/-- **What `Delete` must do** with an npid and a password that the client appended. -/
structure DeleteWorks (sv : Services) (outside : ℤ → UInt8) (npid password : String) : Prop where
  decoded : decodeDelete outside (deletePayload npid password) = some (npid, password)
  /-- who can log in can delete his account -/
  deletes : ∀ (env : Env) (cs : CommandState) (user : UserRecord), env.writeOk = true →
    checkUser sv cs.db npid password "" false = some user → user.userId = cs.session.info.userId →
    (cmdDelete sv env cs (decodeDelete outside (deletePayload npid password))).2.1 = .noError

/-- Deletion works exactly if both texts are read back. -/
theorem deleteWorks_iff (sv : Services) :
    DeleteWorks sv outside npid password ↔
      decodeDelete outside (deletePayload npid password) = some (npid, password) := by
  refine ⟨DeleteWorks.decoded, fun h => ⟨h, ?_⟩⟩
  intro env cs user hok hcheck hown
  rw [h]
  simp [cmdDelete, hcheck, hown, hok]

/-- Who has an account has a name and a password. -/
theorem created_ne_empty {sv : Services} {env : Env} {cs : CommandState} {req : RegistrationRequest}
    (h : (cmdCreate sv env cs (some req)).2.1 = .noError) : req.npid ≠ "" ∧ req.password ≠ "" := by
  unfold cmdCreate at h
  simp only at h
  split at h
  · cases h
  split at h
  · cases h
  rename_i hvalid
  split at h
  · cases h
  rename_i hgiven
  refine ⟨fun hnpid => ?_, fun hpw => hgiven (Or.inl hpw)⟩
  simp [isValidNpid, hnpid] at hvalid

/-- For an account that was created, that is so exactly if both are ASCII and the payload is no
longer than an `int` counts. -/
theorem created_deleteWorks_iff {sv : Services} {env : Env} {cs : CommandState}
    {req : RegistrationRequest} (h : (cmdCreate sv env cs (some req)).2.1 = .noError)
    (hnpid : NulFree req.npid) (hpassword : NulFree req.password) :
    DeleteWorks sv outside req.npid req.password ↔ IsAscii req.npid ∧ IsAscii req.password ∧
      (toUtf8 req.npid).length + 1 + (toUtf8 req.password).length < 2 ^ 31 := by
  obtain ⟨hn, hp⟩ := created_ne_empty h
  rw [deleteWorks_iff, decodeDelete_iff hnpid hpassword hn hp]

/-- **Strings of the raw codec.** `getString` gives back what `appendCStr` wrote, and an account that
was created can be deleted with its npid and password, exactly when these are ASCII and the positions
fit an `int`. -/
theorem cstr_delete_iff (sv : Services) (outside : ℤ → UInt8) :
    (∀ (empty : Bool) (s : String) (before after : List UInt8), NulFree s → (empty = true ∨ s ≠ "") →
      before.length < 2 ^ 31 → (ReadBack outside empty s before after ↔
        IsAscii s ∧ before.length + (toUtf8 s).length + 1 < 2 ^ 31)) ∧
    ∀ (env : Env) (cs : CommandState) (req : RegistrationRequest),
      (cmdCreate sv env cs (some req)).2.1 = .noError → NulFree req.npid → NulFree req.password →
        (DeleteWorks sv outside req.npid req.password ↔ IsAscii req.npid ∧ IsAscii req.password ∧
          (toUtf8 req.npid).length + 1 + (toUtf8 req.password).length < 2 ^ 31) :=
  ⟨fun _ _ _ _ hs hempty hp => readBack_iff hs hempty hp,
    fun _ _ _ h hnpid hpassword => created_deleteWorks_iff h hnpid hpassword⟩

/-- Carol registers with a server that has no accounts yet. -/
def carolRequest (password : String) : RegistrationRequest :=
  { npid := "carol", password := password, email := "carol@example.org" }

/-- A server without accounts, and a connection that has said nothing yet. -/
def noAccounts : CommandState := ⟨⟨[], 0, ∅⟩, {}, {}⟩

theorem cstr_delete_carol : DeleteWorks .plain (fun _ => 0) "carol" "secret" := by
  have hcreated : (cmdCreate .plain .plain noAccounts (some (carolRequest "secret"))).2.1 = .noError := by
    decide +kernel
  have hlen : (toUtf8 "carol").length + 1 + (toUtf8 "secret").length < 2 ^ 31 := by decide
  exact ((cstr_delete_iff .plain fun _ => 0).2 .plain noAccounts _ hcreated (by decide) (by decide)).mpr
    ⟨by decide, by decide, hlen⟩

/-- The account of a user whose password is not ASCII cannot be deleted with it. -/
theorem latin1_password_not_decoded : ¬ ∀ (sv : Services) (outside : ℤ → UInt8) (env : Env)
    (cs : CommandState) (req : RegistrationRequest), (cmdCreate sv env cs (some req)).2.1 = .noError →
      NulFree req.npid → NulFree req.password → DeleteWorks sv outside req.npid req.password := by
  intro h
  have hcreated : (cmdCreate .plain .plain noAccounts (some (carolRequest "é"))).2.1 = .noError := by
    decide +kernel
  have hnpid : NulFree (carolRequest "é").npid := by decide
  have hpassword : NulFree (carolRequest "é").password := by decide
  have hworks := h .plain (fun _ => 0) .plain noAccounts _ hcreated hnpid hpassword
  have hascii := ((created_deleteWorks_iff hcreated hnpid hpassword).mp hworks).2.1
  exact absurd (hascii 'é' (by decide)) (by decide)

end ShadNet
