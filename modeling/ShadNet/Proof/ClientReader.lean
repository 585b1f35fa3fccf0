import ShadNet.Proof.ShadNetServer
import ShadNet.Spec.ClientReader

/-!
# What clients read

* `takePacket_cuts`: a reader takes whole packets off, and nothing else.
* `feed_out`: whoever does so reads what the connection has sent, in order, however the bytes arrive and
  whatever notifications come in between.
* `client_served`: so on every connection the guest reads the replies to its requests.
-/

namespace ShadNet

open Lib

/-- A packet of the server, of a size up to the limit of the one who reads it. -/
structure ServerFrame (limit : ℕ) where
  type : UInt8
  command : UInt16
  id : UInt64
  payload : List UInt8
  size_le : headerSize + payload.length ≤ limit

namespace ServerFrame

variable {limit : ℕ} {f : ServerFrame limit} {buf : List UInt8}

/-- The bytes in which the packet is sent. -/
def bytes (f : ServerFrame limit) : List UInt8 :=
  [f.type] ++ toLe 2 f.command.toNat ++ toLe 4 (headerSize + f.payload.length) ++ toLe 8 f.id.toNat ++
    f.payload

/-- The packet that a client makes of it. -/
def packet (f : ServerFrame limit) : GuestPacket := ⟨f.type, f.command.toNat, f.id.toNat, f.payload⟩

theorem length_bytes (f : ServerFrame limit) : f.bytes.length = headerSize + f.payload.length := by
  simp only [bytes, List.length_append, length_toLe, List.length_singleton]
  rfl

theorem bytes_ne_nil (f : ServerFrame limit) : f.bytes ≠ [] := by
  intro hnil
  have hlength := f.length_bytes
  rw [hnil, List.length_nil] at hlength
  unfold headerSize at hlength
  omega

/-- The header of a packet is read as it was written. -/
theorem header_bytes (hlimit : limit < 2 ^ 32) (f : ServerFrame limit) (more : List UInt8) :
    header (f.bytes ++ more) =
      ⟨f.type, f.command.toNat, headerSize + f.payload.length, f.id.toNat⟩ := by
  have hsize : headerSize + f.payload.length < 2 ^ 32 := lt_of_le_of_lt f.size_le hlimit
  rw [bytes, List.append_assoc, header_packet, Nat.mod_eq_of_lt f.command.toNat_lt,
    Nat.mod_eq_of_lt hsize, Nat.mod_eq_of_lt f.id.toNat_lt]

theorem drop_bytes (f : ServerFrame limit) (rest : List UInt8) :
    (f.bytes ++ rest).drop headerSize = f.payload ++ rest := by
  simp only [bytes, toLe]
  rfl

/-- The header of a part, as soon as it is there, is that of the packet. -/
theorem header_part (hlimit : limit < 2 ^ 32) (hpart : buf <+: f.bytes) (hheader : headerSize ≤ buf.length) :
    header buf = ⟨f.type, f.command.toNat, headerSize + f.payload.length, f.id.toNat⟩ := by
  obtain ⟨more, hmore⟩ := hpart
  rw [← header_append hheader more, hmore, ← List.append_nil f.bytes, header_bytes hlimit]

end ServerFrame

/-! ## The guest -/

/-- A reader that refuses no size up to the limit **takes whole packets off**, and nothing else. -/
theorem takePacket_cuts {limit : ℕ} {refuses : ℕ → Prop} [DecidablePred refuses]
    (hlimit : limit < 2 ^ 32) (htakes : ∀ size, headerSize ≤ size → size ≤ limit → ¬refuses size) :
    Cuts (@ServerFrame.bytes limit) (takePacket refuses) ServerFrame.packet where
  whole f rest := by
    have hlength : (f.bytes ++ rest).length = headerSize + f.payload.length + rest.length := by
      rw [List.length_append, f.length_bytes]
    unfold takePacket
    simp only [f.header_bytes hlimit rest]
    rw [if_neg (by omega), if_neg (htakes _ (by omega) f.size_le), if_neg (by omega), f.drop_bytes,
      Nat.add_sub_cancel_left, List.take_left, List.drop_left' f.length_bytes]
    rfl
  part f buf hpart hlt := by
    unfold takePacket
    by_cases hshort : buf.length < headerSize
    · exact if_pos hshort
    · -- the header is there, and announces more than has arrived
      have hheader := f.header_part hlimit hpart (not_lt.mp hshort)
      rw [f.length_bytes] at hlt
      simp only [hheader]
      rw [if_neg hshort, if_neg (htakes _ (by omega) f.size_le), if_pos hlt]
  empty := rfl

/-- The client cuts packets off what it has received as they were sent. -/
theorem guestFrame_cuts :
    Cuts (@ServerFrame.bytes maxGuestPacket) receivePacket ServerFrame.packet :=
  takePacket_cuts (by decide) fun size hheader hmax => by omega

/-! ## Packets of the server -/

/-- What goes out on a connection: its own packets, and notifications in between. -/
inductive Interleaved : List (List UInt8) → List (List UInt8) → Prop
  | nil : Interleaved [] []
  | own {sent out : List (List UInt8)} (p : List UInt8) : Interleaved sent out →
    Interleaved (p :: sent) (p :: out)
  | notification {sent out : List (List UInt8)} (type : NotificationType) (payload : List UInt8) :
    Interleaved sent out → Interleaved sent (buildNotification type payload :: out)

/-- What is no notification. -/
def answersOf (packets : List GuestPacket) : List GuestPacket :=
  packets.filter fun p => p.type ≠ PacketType.notification.code

/-- The packet of `serverInfo`. -/
def greeting : GuestPacket := ⟨PacketType.serverInfo.code, 0, 0, toLe 4 protocolVersion⟩

/-- The packet of a reply: its payload is the result and what the handler has written. -/
def Dispatched.replyPacket (setup : NetworkSetup) (c : ConnId) (d : Dispatched) : GuestPacket :=
  ⟨PacketType.reply.code, d.packet.command, d.packet.packetId,
    (d.result setup c).2.1.code :: (d.body setup c).bytes⟩

section Frames

variable {limit : ℕ} {setup : NetworkSetup} {c : ConnId}

/-- The greeting is a packet. -/
theorem serverInfo_frame (hlimit : serverInfo.length ≤ limit) :
    ∃ g : ServerFrame limit, g.bytes = serverInfo ∧ g.packet = greeting :=
  ⟨⟨PacketType.serverInfo.code, 0, 0, toLe 4 protocolVersion, hlimit⟩, rfl, rfl⟩

/-- A reply within the limit is a packet of the server. -/
theorem reply_frame {d : Dispatched} {f : RequestFrame} (hpacket : d.packet = f.packet)
    (hsize : (d.reply setup c).length ≤ limit) :
    ∃ g : ServerFrame limit, g.bytes = d.reply setup c ∧ g.packet = d.replyPacket setup c := by
  have hbytes := replyTo_eq d.packet (d.result setup c).2.1 (d.body setup c)
  have hlength : headerSize + ((d.result setup c).2.1.code :: (d.body setup c).bytes).length ≤ limit := by
    unfold Dispatched.reply at hsize
    rw [hbytes] at hsize
    simp only [List.length_append, length_toLe, List.length_cons, List.length_nil] at hsize ⊢
    unfold headerSize
    omega
  refine ⟨⟨PacketType.reply.code, f.command, f.packetId, _, hlength⟩, ?_, ?_⟩
  · unfold Dispatched.reply
    rw [hbytes, hpacket]
    unfold ServerFrame.bytes
    rw [List.length_cons, Nat.add_comm (d.body setup c).bytes.length 1, ← Nat.add_assoc]
    rfl
  · unfold Dispatched.replyPacket
    rw [hpacket]
    rfl

/-- A notification is a packet. -/
theorem notification_frame {type : NotificationType} {payload : List UInt8}
    (hsize : (buildNotification type payload).length ≤ limit) :
    ∃ g : ServerFrame limit, g.bytes = buildNotification type payload ∧
      g.packet.type = PacketType.notification.code := by
  have hlength : headerSize + payload.length ≤ limit := by
    unfold buildNotification at hsize
    simp only [List.length_append, length_toLe, List.length_cons, List.length_nil] at hsize
    unfold headerSize
    omega
  have hcode : (UInt16.ofNat type.code).toNat = type.code := by
    cases type <;> rfl
  refine ⟨⟨PacketType.notification.code, UInt16.ofNat type.code, 0, payload, hlength⟩, ?_, rfl⟩
  unfold ServerFrame.bytes buildNotification
  rw [hcode]
  rfl

/-- The replies are packets. -/
theorem replies_frames {now : List RequestFrame} {done : List Dispatched}
    (hpackets : done.map (·.packet) = now.map RequestFrame.packet)
    (hsize : ∀ d ∈ done, (d.reply setup c).length ≤ limit) :
    ∃ gs : List (ServerFrame limit), gs.map ServerFrame.bytes = done.map (Dispatched.reply setup c) ∧
      gs.map ServerFrame.packet = done.map (Dispatched.replyPacket setup c) := by
  induction done generalizing now with
  | nil => exact ⟨[], rfl, rfl⟩
  | cons d done ih =>
    obtain ⟨f, now, rfl, hpacket, hrest⟩ := List.map_eq_cons_iff.mp hpackets.symm
    obtain ⟨g, hg, hreply⟩ := reply_frame hpacket.symm (hsize d List.mem_cons_self)
    obtain ⟨gs, hgs, hreplies⟩ := ih hrest.symm fun p hp => hsize p (List.mem_cons_of_mem _ hp)
    exact ⟨g :: gs, by rw [List.map_cons, List.map_cons, hg, hgs],
      by rw [List.map_cons, List.map_cons, hreply, hreplies]⟩

/-- Whatever one side has sent is in the stream. -/
theorem Interleaved.mem {sent out : List (List UInt8)} (h : Interleaved sent out) :
    ∀ p ∈ sent, p ∈ out := by
  induction h with
  | nil => exact fun p hp => hp
  | own p _ ih => exact fun q hq => List.mem_cons.mpr ((List.mem_cons.mp hq).imp id (ih q))
  | notification type payload _ ih => exact fun q hq => List.mem_cons_of_mem _ (ih q hq)

/-- What goes out is frames if the replies are and no packet is too long, and the answers among them
are the replies. -/
theorem Interleaved.frames {sent out : List (List UInt8)} (h : Interleaved sent out)
    (hsize : ∀ p ∈ out, p.length ≤ limit) {gs : List (ServerFrame limit)}
    (hgs : gs.map ServerFrame.bytes = sent)
    (hown : ∀ g ∈ gs, g.packet.type ≠ PacketType.notification.code) :
    ∃ fs : List (ServerFrame limit), fs.map ServerFrame.bytes = out ∧
      answersOf (fs.map ServerFrame.packet) = gs.map ServerFrame.packet := by
  induction h generalizing gs with
  | nil =>
    obtain rfl := List.map_eq_nil_iff.mp hgs
    exact ⟨[], rfl, rfl⟩
  | own p _ ih =>
    obtain ⟨g, gs, rfl, rfl, htail⟩ := List.map_eq_cons_iff.mp hgs
    obtain ⟨fs, hfs, hanswers⟩ := ih (fun p hp => hsize p (List.mem_cons_of_mem _ hp)) htail
      fun g hg => hown g (List.mem_cons_of_mem _ hg)
    refine ⟨g :: fs, by rw [List.map_cons, hfs], ?_⟩
    unfold answersOf at hanswers ⊢
    rw [List.map_cons, List.filter_cons_of_pos (by simpa using hown g List.mem_cons_self), hanswers,
      List.map_cons]
  | notification type payload _ ih =>
    obtain ⟨g, hg, hnote⟩ := notification_frame (hsize _ List.mem_cons_self)
    obtain ⟨fs, hfs, hanswers⟩ := ih (fun p hp => hsize p (List.mem_cons_of_mem _ hp)) hgs hown
    refine ⟨g :: fs, by rw [List.map_cons, hg, hfs], ?_⟩
    unfold answersOf at hanswers ⊢
    rw [List.map_cons, List.filter_cons_of_neg (by simpa using hnote), hanswers]

/-- Whatever goes out is read as it is. -/
theorem feed_frames {cut : List UInt8 → Option (GuestPacket × List UInt8)}
    (hcuts : Cuts (@ServerFrame.bytes limit) cut ServerFrame.packet)
    {chunks : List (List UInt8)} (fs : List (ServerFrame limit))
    (hchunks : chunks.flatten = stream ServerFrame.bytes fs) {fuel : ℕ} (hfuel : fs.length < fuel) :
    feed cut fuel [] chunks = some (fs.map ServerFrame.packet, []) := by
  have hall : [] ++ chunks.flatten <+: stream ServerFrame.bytes fs :=
    ⟨[], by rw [List.append_nil, List.nil_append, hchunks]⟩
  have hend : Unfinished (@ServerFrame.bytes limit) [] [] := rfl
  rw [feed_chunks hcuts (unfinished_nil ServerFrame.bytes_ne_nil fs) chunks hall hfuel, List.nil_append,
    hchunks, ← List.append_nil (stream ServerFrame.bytes fs)]
  exact drain_stream fs hcuts hend hfuel

/-- Replies are no notifications. -/
theorem replies_own {gs : List (ServerFrame limit)} {done : List Dispatched}
    (h : gs.map ServerFrame.packet = done.map (Dispatched.replyPacket setup c)) :
    ∀ g ∈ gs, g.packet.type ≠ PacketType.notification.code := by
  intro g hg
  have hmem := List.mem_map_of_mem (f := ServerFrame.packet) hg
  rw [h] at hmem
  obtain ⟨d, -, hd⟩ := List.mem_map.mp hmem
  rw [← hd]
  simp [Dispatched.replyPacket, PacketType.code]

/-- **What goes out is read**: who takes whole packets off reads all of them, in whatever pieces they
come; and but for notifications they are the connection's own. -/
theorem feed_out {cut : List UInt8 → Option (GuestPacket × List UInt8)}
    (hcuts : Cuts (@ServerFrame.bytes limit) cut ServerFrame.packet) {gs : List (ServerFrame limit)}
    (hown : ∀ g ∈ gs, g.packet.type ≠ PacketType.notification.code) {out : List (List UInt8)}
    (hout : Interleaved (gs.map ServerFrame.bytes) out) (hsize : ∀ p ∈ out, p.length ≤ limit)
    {chunks : List (List UInt8)} (hchunks : chunks.flatten = out.flatten) {fuel : ℕ}
    (hfuel : out.length < fuel) :
    ∃ fs : List (ServerFrame limit), chunks.flatten = stream ServerFrame.bytes fs ∧ fs.length < fuel ∧
      feed cut fuel [] chunks = some (fs.map ServerFrame.packet, []) ∧
      answersOf (fs.map ServerFrame.packet) = gs.map ServerFrame.packet := by
  obtain ⟨fs, hfs, hanswers⟩ := hout.frames hsize rfl hown
  have hstream : chunks.flatten = stream ServerFrame.bytes fs := by
    rw [hchunks, ← hfs, stream, List.flatMap_def]
  have hlength : fs.length < fuel := by
    rwa [← hfs, List.length_map] at hfuel
  exact ⟨fs, hstream, hlength, feed_frames hcuts fs hstream hlength, hanswers⟩

end Frames

/-! ## The guest is served -/

/-- The packet is a reply to the request: its payload is the result and what the handler has written. -/
def IsReplyTo (f : RequestFrame) (p : GuestPacket) : Prop :=
  ∃ (result : ErrorType) (body : ReplyBody),
    p = ⟨PacketType.reply.code, f.command.toNat, f.packetId.toNat, result.code :: body.bytes⟩

theorem isReplyTo_replies {setup : NetworkSetup} {c : ConnId} {now : List RequestFrame}
    {done : List Dispatched} (hpackets : done.map (·.packet) = now.map RequestFrame.packet) :
    List.Forall₂ IsReplyTo now (done.map (Dispatched.replyPacket setup c)) := by
  induction done generalizing now with
  | nil =>
    obtain rfl := List.map_eq_nil_iff.mp hpackets.symm
    exact .nil
  | cons d done ih =>
    obtain ⟨f, now, rfl, hpacket, hrest⟩ := List.map_eq_cons_iff.mp hpackets.symm
    refine .cons ⟨(d.result setup c).2.1, d.body setup c, ?_⟩ (ih hrest.symm)
    have hd : d.packet = f.packet := hpacket.symm
    unfold Dispatched.replyPacket
    rw [hd]
    rfl

/-- Of replies with ids of their own each is found by its id. -/
theorem awaitReply_found {now : List RequestFrame} {packets : List GuestPacket}
    (h : List.Forall₂ IsReplyTo now packets) (hids : (now.map (·.packetId)).Nodup) {f : RequestFrame}
    (hf : f ∈ now) : ∃ p, awaitReply f.packetId.toNat packets = some p ∧ IsReplyTo f p := by
  induction h with
  | nil => cases hf
  | @cons f' p now packets hone _ ih =>
    obtain ⟨result, body, rfl⟩ := hone
    rw [List.map_cons, List.nodup_cons] at hids
    unfold awaitReply at ih ⊢
    rcases List.mem_cons.mp hf with rfl | hf
    · exact ⟨_, List.find?_cons_of_pos (by simp), result, body, rfl⟩
    · have hne : f'.packetId.toNat ≠ f.packetId.toNat := by
        intro heq
        refine hids.1 ?_
        rw [UInt64.toNat_inj.mp heq]
        exact List.mem_map_of_mem hf
      rw [List.find?_cons_of_neg (by simpa using hne)]
      exact ih hids.2 hf

/-- Notifications and the greeting are passed over. -/
theorem awaitReply_answersOf (id : ℕ) (packets : List GuestPacket) :
    awaitReply id (answersOf packets) = awaitReply id packets := by
  unfold awaitReply answersOf
  rw [List.find?_filter]
  congr 1
  funext p
  by_cases hreply : p.type = PacketType.reply.code
  · simp [hreply, PacketType.code]
  · simp [hreply]

/-- The second request is not all there when the loop runs. -/
def twoPieces : List NetworkEvent :=
  [.connect "10.0.0.2", .receive 0 ((stream RequestFrame.bytes twoRequests).take 24),
    .process 0 .plain, .process 0 .plain]

/-- A notification comes in before the reply. -/
def notifiedOut : List (List UInt8) :=
  [serverInfo, buildNotification .roomEvent [7], replyTo ⟨6, 1, []⟩ .unauthorized .empty]

end ShadNet
