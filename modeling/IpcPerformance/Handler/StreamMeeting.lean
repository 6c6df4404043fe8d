import IpcPerformance.Handler.StreamSharing
import IpcPerformance.Handler.Meeting

/-! # A stream socket and its clients

A server and any number of clients open, close, write and read as often as they like, one system call at a
time; the rounds of one `read` are calls like others.

* `ReadPoint.Before` — what is left to be received, from a point of `read` on.
* `StreamKnown` — what a party knows, and the rules for its programs.
* `StreamSocket.sessions_of_run` — what is read on a connection is what its client has sent. -/

namespace IpcPerformance

/-! ## Rounds -/

/-- **What is left to be received**, when some bytes are in the buffer. -/
def ReadPoint.Before (buffer : Memory UInt8) (bytes : List UInt8)
    (rest : List (DataHeader × DataObject)) : ReadPoint → Prop
  | .header amount =>
      amount < DataHeader.headerSize ∧ buffer.read 0 amount ++ bytes = streamBytes rest
  | .body announced amount =>
      ∃ m rest', rest = m :: rest' ∧ announced = m.1 ∧ amount < announced.bodySize.toNat ∧
        buffer.read 0 amount ++ bytes = m.2.image ++ streamBytes rest'

theorem streamBytes_append (rest ms : List (DataHeader × DataObject)) :
    streamBytes (rest ++ ms) = streamBytes rest ++ (ms.map imageOf).flatten := by
  rw [streamBytes, streamBytes, List.flatMap_append, List.flatMap_def (l := ms)]

theorem streamBytes_cons (m : DataHeader × DataObject) (rest : List (DataHeader × DataObject)) :
    streamBytes (m :: rest) = imageOf m ++ streamBytes rest :=
  List.flatMap_cons

namespace ReadPoint

variable {buffer : Memory UInt8} {bytes tail : List UInt8} {rest : List (DataHeader × DataObject)}
  {point : ReadPoint}

/-- More is sent. -/
theorem Before.grows (h : point.Before buffer bytes rest) (ms : List (DataHeader × DataObject)) :
    point.Before buffer (bytes ++ (ms.map imageOf).flatten) (rest ++ ms) := by
  cases point with
  | header amount =>
      refine ⟨h.1, ?_⟩
      rw [← List.append_assoc, h.2, streamBytes_append]
  | body header amount =>
      obtain ⟨m, rest', rfl, hheader, hlt, hbytes⟩ := h
      refine ⟨m, rest' ++ ms, rfl, hheader, hlt, ?_⟩
      rw [← List.append_assoc, hbytes, streamBytes_append, List.append_assoc]

/-- A stream only ends between two messages. -/
theorem Before.nil (h : point.Before buffer [] rest) (hall : AllMessages rest) :
    rest = [] ∧ point = .header 0 := by
  cases point with
  | header amount =>
      obtain ⟨hlt, hbytes⟩ := h
      have hlength := congrArg List.length hbytes
      rw [List.append_nil, Memory.length_read] at hlength
      cases rest with
      | nil =>
          have hzero : amount = 0 := hlength
          exact ⟨rfl, by rw [hzero]⟩
      | cons m rest =>
          rw [streamBytes_cons, List.length_append, length_imageOf] at hlength
          omega
  | body header amount =>
      obtain ⟨m, rest', rfl, rfl, hlt, hbytes⟩ := h
      have hlength := congrArg List.length hbytes
      have hm := (hall m List.mem_cons_self).toNat_bodySize
      rw [List.append_nil, Memory.length_read, List.length_append] at hlength
      omega

/-- What arrives is behind what is there. -/
theorem read_write_behind (buffer : Memory UInt8) (amount : ℕ) (bytes : List UInt8) :
    (buffer.write amount bytes).read 0 (amount + bytes.length) = buffer.read 0 amount ++ bytes := by
  rw [Memory.read_add, Nat.zero_add, Memory.read_write, Memory.read_write_of_disjoint _ _ (by omega)]

/-- **A round that receives something** goes on with a later point, or it returns the next message. -/
theorem Before.round (h : point.Before buffer (bytes ++ tail) rest) (hall : AllMessages rest)
    (hne : bytes ≠ []) (hcount : bytes.length ≤ StreamSocket.window point) :
    (∃ buffer' point', StreamSocket.readRound buffer point (.bytes bytes) = (buffer', .inl point') ∧
      point'.Before buffer' tail rest) ∨
    ∃ buffer' m rest', rest = m :: rest' ∧
      StreamSocket.readRound buffer point (.bytes bytes) = (buffer', .inr (.ok m)) ∧
      (ReadPoint.header 0).Before buffer' tail rest' := by
  cases point with
  | header amount =>
      obtain ⟨hlt, hbytes⟩ := h
      rw [StreamSocket.window] at hcount
      have hwritten := read_write_behind buffer amount bytes
      rw [← List.append_assoc, ← hwritten] at hbytes
      rw [StreamSocket.readRound, if_neg hne]
      by_cases hmore : amount + bytes.length < DataHeader.headerSize
      · exact .inl ⟨_, _, if_pos hmore, hmore, hbytes⟩
      · -- the header is there
        have hfull : amount + bytes.length = DataHeader.headerSize := by omega
        rw [hfull] at hbytes
        cases rest with
        | nil =>
            have hlength := congrArg List.length hbytes
            rw [List.length_append, Memory.length_read] at hlength
            exact absurd hlength (by simp [streamBytes, DataHeader.headerSize])
        | cons m rest =>
            have hm := hall m List.mem_cons_self
            rw [streamBytes_cons, imageOf_eq, List.append_assoc] at hbytes
            obtain ⟨hheader, htail⟩ := List.append_inj hbytes (by
              rw [Memory.length_read, DataHeader.length_image])
            have hdecoded : DataHeader.deserialize (buffer.write amount bytes) 0 DataHeader.headerSize =
                some m.1 := by
              rw [DataHeader.deserialize_headerSize, hheader, DataHeader.ofImage_image]
            dsimp only
            rw [if_neg hmore, hdecoded]
            dsimp only
            rw [StreamSocket.startBody]
            by_cases hpos : 0 < m.1.bodySize.toNat
            · rw [if_pos hpos]
              exact .inl ⟨_, _, rfl, m, rest, rfl, rfl, hpos, htail⟩
            · -- a body without bytes
              rw [if_neg hpos]
              have hempty : m.2.image = [] :=
                List.eq_nil_of_length_eq_zero (hm.toNat_bodySize.symm.trans (Nat.eq_zero_of_not_pos hpos))
              have hresult := hm.readResult_eq
              rw [hempty] at hresult htail
              have hfinish : StreamSocket.finishBody m.1 (buffer.write amount bytes) = .ok m := by
                rw [StreamSocket.finishBody, Nat.eq_zero_of_not_pos hpos, deserializeDataObject_eq,
                  Memory.read_zero, hresult]
              rw [hfinish]
              exact .inr ⟨_, m, rest, rfl, rfl, by decide, htail⟩
  | body header amount =>
      obtain ⟨m, rest', rfl, rfl, hlt, hbytes⟩ := h
      have hm := hall m List.mem_cons_self
      rw [StreamSocket.window] at hcount
      have hwritten := read_write_behind buffer amount bytes
      rw [← List.append_assoc, ← hwritten] at hbytes
      rw [StreamSocket.readRound, if_neg hne]
      dsimp only
      by_cases hmore : amount + bytes.length < m.1.bodySize.toNat
      · rw [if_pos hmore]
        exact .inl ⟨_, _, rfl, m, rest', rfl, rfl, hmore, hbytes⟩
      · -- the body is there
        have hfull : amount + bytes.length = m.1.bodySize.toNat := by omega
        rw [if_neg hmore]
        rw [hfull] at hbytes
        obtain ⟨hbody, htail⟩ := List.append_inj hbytes (by
          rw [Memory.length_read, hm.toNat_bodySize])
        have hfinish : StreamSocket.finishBody m.1 (buffer.write amount bytes) = .ok m := by
          rw [StreamSocket.finishBody, deserializeDataObject_eq, hbody, hm.readResult_eq]
        rw [hfinish]
        exact .inr ⟨_, m, rest', rfl, rfl, by decide, htail⟩

end ReadPoint

/-! ## What the parties know -/

variable {P α β : Type}

/-- **What has been read on a connection**: what was sent on it first; and all of it, when its end has been
found, unless it has been reset. -/
structure StreamSession.Of (k : StreamKernel P) (s : StreamSession) (c : ℕ) : Prop where
  inbox : s.inbox.map imageOf <+: sentTo c k.deliveries
  hungUp (h : s.ended = true) : (k.link c).hungUp = true
  all (h : s.ended = true) (hreset : (k.link c).reset = false) :
    s.inbox.map imageOf = sentTo c k.deliveries

/-- **The server at a connection**: what has not been read is still to be received. -/
structure Serving (k : StreamKernel P) (r : P) (socket : StreamSocket) (point : ReadPoint)
    (s : StreamSession) (c : ℕ) : Prop where
  endpoint : k.endpoint r socket.cfd = some (.server c)
  rest (h : (k.link c).reset = false) : ∃ rest, AllMessages rest ∧
    sentTo c k.deliveries = (s.inbox ++ rest).map imageOf ∧
    point.Before socket.buffer (k.link c).bytes rest
  reset (h : (k.link c).reset = true) :
    point = .header 0 ∧ (k.link c).bytes = [] ∧ (k.link c).hungUp = true

/-- **What a party knows**: it has sent `sent`, and if it is the server, the connections it has accepted
are those of its sessions. -/
structure StreamKnown [DecidableEq P] (r p : P) (k : StreamKernel P) (socket : StreamSocket)
    (point : ReadPoint) (sessions : List StreamSession) (sent : List (List UInt8)) : Prop where
  role : socket.server = decide (p = r)
  outbox : sentBy p k.deliveries = sent
  /-- A socket that is closed has no connection. -/
  down (h : socket.sfd = -1) : socket.cfd = -1
  /-- Without one, nothing is being read. -/
  idle (h : socket.cfd = -1) : point = .header 0
  /-- Clients have none. -/
  client (h : p ≠ r) : socket.cfd = -1
  accepted (h : p = r) : List.Forall₂ (StreamSession.Of k) sessions k.accepted
  /-- The last one that has been accepted is the one behind `cfd_`. -/
  serving (h : socket.cfd ≠ -1) : ∃ s ss c cs, sessions = s :: ss ∧ k.accepted = c :: cs ∧
    Serving k p socket point s c

section Growing

variable {r p : P} {k k' : StreamKernel P} {socket : StreamSocket} {point : ReadPoint}
  {s : StreamSession} {c : ℕ}

/-- What has been read remains what was sent first. -/
theorem StreamSession.Of.grows (h : s.Of k c) (hgrows : StreamKernel.Grows c k k') : s.Of k' c := by
  obtain ⟨new, hsent, -, hend⟩ := hgrows.sent
  refine ⟨?_, fun hended => hgrows.hungUp (h.hungUp hended), fun hended hreset => ?_⟩
  · rw [hsent]
    exact h.inbox.trans (List.prefix_append _ _)
  · rw [hgrows.reset] at hreset
    rw [hsent, hend (h.hungUp hended), List.append_nil]
    exact h.all hended hreset

/-- What is sent is still to be received. -/
theorem Serving.grows (h : Serving k r socket point s c) (hendpoint : k'.endpoint r = k.endpoint r)
    (hgrows : StreamKernel.Grows c k k') (hsound : StreamKernel.Sound r k') :
    Serving k' r socket point s c := by
  obtain ⟨new, hsent, hbytes, hend⟩ := hgrows.sent
  refine ⟨?_, fun hreset => ?_, fun hreset => ?_⟩
  · rw [hendpoint]
    exact h.endpoint
  · rw [hgrows.reset] at hreset
    obtain ⟨rest, hall, hdeliveries, hbefore⟩ := h.rest hreset
    -- what is new are messages
    have hnew : ∀ bytes ∈ new, IsImage bytes := by
      intro bytes hbytes
      have hmem : bytes ∈ sentTo c k'.deliveries := by
        rw [hsent]
        exact List.mem_append_right _ hbytes
      obtain ⟨d, hd, rfl⟩ := List.mem_map.mp hmem
      exact hsound.isImage d (List.mem_of_mem_filter hd)
    obtain ⟨ms, hms, himages⟩ := exists_messages hnew
    refine ⟨rest ++ ms, List.forall_mem_append.mpr ⟨hall, hms⟩, ?_, ?_⟩
    · rw [hsent, hdeliveries, himages, ← List.map_append, List.append_assoc]
    · rw [hbytes, himages]
      exact hbefore.grows ms
  · rw [hgrows.reset] at hreset
    obtain ⟨hpoint, hempty, hhungUp⟩ := h.reset hreset
    refine ⟨hpoint, ?_, hgrows.hungUp hhungUp⟩
    rw [hbytes, hempty, hend hhungUp]
    rfl

end Growing

variable [DecidableEq P] {r p : P} {k k' : StreamKernel P} {socket socket' : StreamSocket}
  {point : ReadPoint} {sessions : List StreamSession} {sent : List (List UInt8)}
  {sysCall : StreamCall}

/-- What a party knows remains true while its connection grows. -/
theorem StreamKnown.grows (h : StreamKnown r p k socket point sessions sent)
    (hendpoint : k'.endpoint p = k.endpoint p) (haccepted : p = r → k'.accepted = k.accepted)
    (hgrows : p = r → ∀ c, StreamKernel.Grows c k k') (hsound : StreamKernel.Sound r k')
    {sent' : List (List UInt8)} (hsent : sentBy p k'.deliveries = sent') :
    StreamKnown r p k' socket point sessions sent' where
  role := h.role
  outbox := hsent
  down := h.down
  idle := h.idle
  client := h.client
  accepted hp := by
    rw [haccepted hp]
    exact (h.accepted hp).imp fun _ c hof => hof.grows (hgrows hp c)
  serving hcfd := by
    have hp : p = r := by
      by_contra hp
      exact hcfd (h.client hp)
    obtain ⟨s, ss, c, cs, hsessions, hhead, hserving⟩ := h.serving hcfd
    refine ⟨s, ss, c, cs, hsessions, (haccepted hp).trans hhead, ?_⟩
    subst hp
    exact hserving.grows hendpoint (hgrows rfl c) hsound

/-- So the others may do what they are allowed to. -/
theorem StreamKnown.of_allows (h : StreamKnown r p k socket point sessions sent)
    (hallows : StreamKernel.Allows r p k k') (hsound : StreamKernel.Sound r k') :
    StreamKnown r p k' socket point sessions sent :=
  h.grows hallows.endpoint hallows.accepted hallows.grows hsound (hallows.sentBy.trans h.outbox)

/-- A party that gives up its connection, or has none, may make other calls than to transfer something. -/
theorem StreamKnown.quiet (h : StreamKnown r p k socket point sessions sent)
    (hquiet : StreamKernel.Quiet k k') (hserver : socket'.server = socket.server)
    (hcfd : socket'.cfd = -1) : StreamKnown r p k' socket' (.header 0) sessions sent where
  role := hserver.trans h.role
  outbox := by
    rw [hquiet.deliveries]
    exact h.outbox
  down _ := hcfd
  idle _ := rfl
  client _ := hcfd
  accepted hp := by
    rw [hquiet.accepted]
    exact (h.accepted hp).imp fun _ c hof => hof.grows (hquiet.grows c)
  serving hopen := absurd hcfd hopen

/-- It may give it up without any. -/
theorem StreamKnown.drop (h : StreamKnown r p k socket point sessions sent)
    (hserver : socket'.server = socket.server) (hcfd : socket'.cfd = -1) :
    StreamKnown r p k socket' (.header 0) sessions sent :=
  h.quiet (.refl k) hserver hcfd

/-- A connection is accepted. -/
theorem StreamKnown.accept
    (h : StreamKnown r r k socket (.header 0) sessions sent) (hopen : socket.sfd ≠ -1)
    (hsound : StreamKernel.Sound r k) {c : ℕ} {waiting : List ℕ} (hwaiting : k.waiting = some (c :: waiting))
    (fd : ℤ) :
    StreamKnown r r (k.acceptLink r fd c waiting) { socket with cfd := fd } (.header 0)
      (⟨[], false⟩ :: sessions) sent where
  role := h.role
  outbox := h.outbox
  down hclosed := absurd hclosed hopen
  idle _ := rfl
  client hne := absurd rfl hne
  accepted _ := by
    refine .cons ⟨List.nil_prefix, nofun, nofun⟩ ((h.accepted rfl).imp fun s c' hof => ?_)
    exact ⟨hof.inbox, hof.hungUp, hof.all⟩
  serving _ := by
    refine ⟨_, _, c, k.accepted, rfl, rfl, ?_, fun _ => ?_, fun hreset => ?_⟩
    · change Function.update k.endpoint r (Function.update (k.endpoint r) fd _) r fd = _
      rw [Function.update_self, Function.update_self]
    · obtain ⟨ms, hms, himages⟩ := hsound.exists_sentTo c
      refine ⟨ms, hms, himages, by decide, ?_⟩
      have hbytes := (hsound.unread c (hsound.notMem_accepted hwaiting)).2
      rw [himages, ← List.flatMap_def] at hbytes
      exact hbytes
    · have hfresh := (hsound.unread c (hsound.notMem_accepted hwaiting)).1
      change (k.link c).reset = true at hreset
      rw [hfresh] at hreset
      cases hreset

/-- Between two reads the buffer may be used for something else. -/
theorem StreamKnown.reuse
    (h : StreamKnown r p k socket (.header 0) sessions sent) (buffer : Memory UInt8) (lastId : UInt32) :
    StreamKnown r p k { socket with buffer, lastId } (.header 0) sessions sent where
  role := h.role
  outbox := h.outbox
  down := h.down
  idle := h.idle
  client := h.client
  accepted := h.accepted
  serving hcfd := by
    obtain ⟨s, ss, c, cs, hsessions, hhead, hserving⟩ := h.serving hcfd
    exact ⟨s, ss, c, cs, hsessions, hhead, hserving.endpoint, hserving.rest, hserving.reset⟩

/-! ## Programs -/

/-- A program that is safe for a party that shares a socket with the server `r`. -/
def StreamSafe (r p : P) (post : α → StreamKernel P → Prop) (program : StreamProgram α)
    (k : StreamKernel P) : Prop :=
  program.Safe StreamKernel.answer StreamKernel.Harmless (StreamKernel.Sound r) (StreamKernel.Allows r)
    p post k

variable {post : α → StreamKernel P → Prop} {next : KernelReply → StreamProgram α}

theorem StreamSafe.ret {a : α} (h : post a k) : StreamSafe r p post (.ret a) k := h

/-- One program after the other. -/
theorem StreamSafe.bind {post : β → StreamKernel P → Prop} {program : StreamProgram α}
    {f : α → StreamProgram β}
    (h : StreamSafe r p (fun a k => StreamSafe r p post (f a) k) program k) :
    StreamSafe r p post (program.bind f) k :=
  Program.Safe.bind h

/-- **The rule for system calls**: they are permitted, and made after what the others have done. -/
theorem StreamKnown.callHarmless (h : StreamKnown r p k socket point sessions sent)
    (hperm : StreamKernel.Permitted r p sysCall)
    (hnext : ∀ (k₁ : StreamKernel P) (reply : KernelReply) (k₂ : StreamKernel P),
      StreamKnown r p k₁ socket point sessions sent → StreamKernel.Sound r k₁ →
      k₁.Harmless sysCall reply → k₁.Effect p sysCall reply k₂ → StreamSafe r p post (next reply) k₂) :
    StreamSafe r p post (.call sysCall next) k := by
  intro k₁ hallows hsound reply k₂ hharmless hanswer
  have heffect := StreamKernel.effect_of_answer hanswer
  exact ⟨heffect.sound hsound hperm hharmless, fun q hq => heffect.allows hsound hq,
    hnext k₁ reply k₂ (h.of_allows hallows hsound) hsound hharmless heffect⟩

/-- Most of them may have any reply. -/
theorem StreamKnown.call (h : StreamKnown r p k socket point sessions sent)
    (hperm : StreamKernel.Permitted r p sysCall)
    (hnext : ∀ (k₁ : StreamKernel P) (reply : KernelReply) (k₂ : StreamKernel P),
      StreamKnown r p k₁ socket point sessions sent → StreamKernel.Sound r k₁ →
      k₁.Effect p sysCall reply k₂ → StreamSafe r p post (next reply) k₂) :
    StreamSafe r p post (.call sysCall next) k :=
  h.callHarmless hperm fun k₁ reply k₂ h₁ hsound _ heffect => hnext k₁ reply k₂ h₁ hsound heffect

/-- The rule for those that transfer nothing, when there is no connection, or no longer. -/
theorem StreamKnown.callQuiet (h : StreamKnown r p k socket point sessions sent)
    (hserver : socket'.server = socket.server) (hcfd : socket'.cfd = -1)
    (hperm : StreamKernel.Permitted r p sysCall) (hcall : ¬ sysCall.Transfers)
    (hnext : ∀ (reply : KernelReply) (k : StreamKernel P),
      StreamKnown r p k socket' (.header 0) sessions sent → StreamSafe r p post (next reply) k) :
    StreamSafe r p post (.call sysCall next) k :=
  h.call hperm fun _ reply k₂ hknown _ heffect =>
    hnext reply k₂ (hknown.quiet (heffect.quiet hcall) hserver hcfd)

namespace StreamSocket

/-- What a method knows that leaves a socket. -/
def Leaves (r p : P) (sessions : List StreamSession) (sent : List (List UInt8))
    (res : Bool × StreamSocket) (k : StreamKernel P) : Prop :=
  StreamKnown r p k res.2 (.header 0) sessions sent

/-- `StreamSocket::close`. -/
theorem safe_closeHandler (h : StreamKnown r p k socket (.header 0) sessions sent) :
    StreamSafe r p (Leaves r p sessions sent) socket.closeHandler k := by
  unfold closeHandler
  split
  · exact .ret h
  · dsimp only
    have hserver : ({ socket with sfd := -1, cfd := -1 } : StreamSocket).server = socket.server := rfl
    refine h.callQuiet hserver rfl trivial id fun _ k₁ h₁ => ?_
    have hremoving : ∀ k, StreamKnown r p k { socket with sfd := -1, cfd := -1 } (.header 0) sessions
        sent → StreamSafe r p (Leaves r p sessions sent)
          (if (socket.unix && socket.server) = true then
            .call .remove fun _ => .ret (true, { socket with sfd := -1, cfd := -1 })
          else .ret (true, { socket with sfd := -1, cfd := -1 })) k := by
      intro k hk
      split
      · exact hk.callQuiet rfl rfl trivial id fun _ _ hk' => .ret hk'
      · exact .ret hk
    split
    · exact h₁.callQuiet rfl rfl trivial id fun _ k₂ h₂ => hremoving k₂ h₂
    · exact hremoving k₁ h₁

/-- `StreamSocket::create_server`. -/
theorem safe_createServer (hp : p = r) (hcfd : socket.cfd = -1)
    (h : StreamKnown r p k socket (.header 0) sessions sent) :
    StreamSafe r p (Leaves r p sessions sent) socket.createServer k := by
  refine h.callQuiet rfl hcfd trivial id fun res k₁ h₁ => ?_
  have hsocket : ∀ k, StreamKnown r p k socket (.header 0) sessions sent →
      Leaves r p sessions sent (true, { socket with sfd := res.status }) k :=
    fun _ hk => hk.drop rfl hcfd
  dsimp only
  split
  · exact .ret (hsocket k₁ h₁)
  · refine h₁.callQuiet rfl hcfd trivial id fun _ k₂ h₂ => ?_
    refine h₂.callQuiet rfl hcfd trivial id fun res' k₃ h₃ => ?_
    split
    · exact .ret (hsocket k₃ h₃)
    · exact h₃.callQuiet rfl hcfd hp id fun _ k₄ h₄ => .ret (hsocket k₄ h₄)

/-- `StreamSocket::create_client`. -/
theorem safe_createClient (hcfd : socket.cfd = -1)
    (h : StreamKnown r p k socket (.header 0) sessions sent) :
    StreamSafe r p (Leaves r p sessions sent) socket.createClient k := by
  refine h.callQuiet rfl hcfd trivial id fun res k₁ h₁ => ?_
  have hsocket : ∀ k, StreamKnown r p k socket (.header 0) sessions sent →
      Leaves r p sessions sent (true, { socket with sfd := res.status }) k :=
    fun _ hk => hk.drop rfl hcfd
  dsimp only
  split
  · exact .ret (hsocket k₁ h₁)
  · exact h₁.callQuiet rfl hcfd trivial id fun _ k₂ h₂ => .ret (hsocket k₂ h₂)

/-- `StreamSocket::open`. -/
theorem safe_openHandler (h : StreamKnown r p k socket (.header 0) sessions sent) :
    StreamSafe r p (Leaves r p sessions sent) socket.openHandler k := by
  unfold openHandler
  by_cases hopen : socket.sfd = -1
  · rw [if_neg (not_not.mpr hopen)]
    have hcfd := h.down hopen
    -- the server is the only one that listens
    have hcreated : StreamSafe r p (Leaves r p sessions sent)
        (if socket.server = true then socket.createServer else socket.createClient) k := by
      rw [h.role]
      by_cases hp : p = r
      · rw [if_pos (decide_eq_true hp)]
        exact safe_createServer hp hcfd h
      · rw [if_neg (by simp [hp])]
        exact safe_createClient hcfd h
    refine .bind (hcreated.mono ?_)
    rintro ⟨created, socket'⟩ k' hknown
    cases created with
    | true => exact .ret hknown
    | false => exact .bind ((safe_closeHandler hknown).mono fun _ _ hclosed => .ret hclosed)
  · rw [if_pos hopen]
    exact .ret h

/-- `StreamSocket::~StreamSocket`. -/
theorem safe_destroy (h : StreamKnown r p k socket (.header 0) sessions sent) :
    StreamSafe r p (fun socket k => StreamKnown r p k socket (.header 0) sessions sent)
      socket.destroy k := by
  unfold destroy
  split
  · exact .bind ((safe_closeHandler h).mono fun _ _ hclosed => .ret hclosed)
  · exact .ret h

/-- The second half of `StreamSocket::accept`. -/
theorem safe_acceptNext (hopen : socket.sfd ≠ -1) (hcfd : socket.cfd = -1)
    (h : StreamKnown r p k socket (.header 0) sessions sent) :
    StreamSafe r p (fun res k =>
      StreamKnown r p k res.2 (.header 0) (StreamParty.begins res.1 sessions) sent) socket.acceptNext k := by
  refine h.callQuiet rfl hcfd trivial id fun res k₁ h₁ => ?_
  split
  · exact .ret h₁
  · split
    · exact .ret h₁
    · refine h₁.call trivial fun k₂ reply k₃ h₂ hsound heffect => ?_
      cases heffect with
      | accept fd fd' c waiting hwaiting hfd =>
          have hp : p = r := hsound.belongs p _ _ hfd
          subst hp
          have hstatus : (KernelReply.value fd').status ≠ -1 := by
            change (fd' : ℤ) ≠ -1
            omega
          rw [if_neg hstatus]
          exact .ret (h₂.accept hopen hsound hwaiting fd')
      | nothing c reply hclose hrecv hfails =>
          rw [if_pos (hfails (.inl ⟨_, rfl⟩))]
          exact .ret h₂

/-- `StreamSocket::accept`: the connection served is given up. -/
theorem safe_accept (h : StreamKnown r p k socket (.header 0) sessions sent) :
    StreamSafe r p (fun res k =>
      StreamKnown r p k res.2 (.header 0) (StreamParty.begins res.1 sessions) sent)
      socket.acceptProgram k := by
  unfold acceptProgram
  split
  · exact .ret h
  · rename_i hopen
    split
    · have hserver : ({ socket with cfd := -1 } : StreamSocket).server = socket.server := rfl
      refine h.callQuiet hserver rfl trivial id fun _ k₁ h₁ => ?_
      exact safe_acceptNext hopen rfl h₁
    · rename_i hcfd
      exact safe_acceptNext hopen (not_not.mp hcfd) h

/-- Waiting changes nothing. -/
theorem safe_pollClient (h : StreamKnown r p k socket point sessions sent) :
    StreamSafe r p (fun _ k => StreamKnown r p k socket point sessions sent) socket.pollClient k := by
  refine h.call trivial fun k₁ reply k₂ h₁ hsound heffect => ?_
  cases heffect with
  | nothing => exact .ret h₁

/-- `StreamSocket::has_data`. -/
theorem safe_hasData (h : StreamKnown r p k socket point sessions sent) :
    StreamSafe r p (fun _ k => StreamKnown r p k socket point sessions sent) socket.hasDataProgram k := by
  unfold hasDataProgram
  split
  · exact .ret h
  · exact safe_pollClient h

/-- `StreamSocket::await_data`: it accepts when there is no connection. -/
theorem safe_awaitData (h : StreamKnown r p k socket (.header 0) sessions sent) :
    StreamSafe r p (fun res k =>
      StreamKnown r p k res.2.2 (.header 0) (StreamParty.begins res.2.1 sessions) sent)
      socket.awaitDataProgram k := by
  unfold awaitDataProgram
  split
  · refine .bind ((safe_accept h).mono ?_)
    rintro ⟨accepted, socket'⟩ k' hknown
    cases accepted with
    | true => exact .bind ((safe_pollClient hknown).mono fun _ _ hpolled => .ret hpolled)
    | false => exact .ret hknown
  · exact .bind ((safe_pollClient h).mono fun _ _ hpolled => .ret hpolled)

/-- `StreamSocket::write`: if it succeeds, the message has been sent. -/
theorem safe_write (h : StreamKnown r p k socket (.header 0) sessions sent) (o : DataObject)
    (timestamp : Int64) :
    StreamSafe r p (fun res k => StreamKnown r p k res.2 (.header 0) sessions
      (if res.1 then sent ++ [imageOf (Channel.message res.2.lastId o timestamp)] else sent))
      (socket.writeProgram o timestamp) k := by
  unfold writeProgram
  split
  · exact .ret h
  · rcases assemble_cases socket.buffer socket.lastId o timestamp with
      ⟨hfits, buffer, hassemble, hloaded⟩ | ⟨-, hassemble⟩
    · rw [hassemble]
      rw [Loaded, length_imageOf] at hloaded
      have hbytes : buffer.read 0 (DataHeader.headerSize + o.bodySize) =
          imageOf (Channel.message (socket.lastId + 1) o timestamp) := hloaded
      have himage : IsImage (imageOf (Channel.message (socket.lastId + 1) o timestamp)) :=
        ⟨_, ⟨hfits, socket.lastId + 1, timestamp, rfl⟩, rfl⟩
      dsimp only
      rw [hbytes]
      refine (h.reuse buffer (socket.lastId + 1)).callHarmless himage
        fun k₁ reply k₂ h₁ hsound hharmless heffect => ?_
      have hsound₂ := heffect.sound hsound himage hharmless
      cases heffect with
      | send fd bytes n c hfd hhungUp =>
          -- it has been sent whole
          obtain rfl : n = (imageOf (Channel.message (socket.lastId + 1) o timestamp)).length := hharmless
          rw [List.take_length] at hsound₂ ⊢
          have hstatus : decide ((KernelReply.value
              (imageOf (Channel.message (socket.lastId + 1) o timestamp)).length).status ≠ -1) = true := by
            refine decide_eq_true ?_
            change (((imageOf _).length : ℕ) : ℤ) ≠ -1
            omega
          refine .ret ?_
          rw [hstatus]
          have hendpoint : (k₁.deliver p c (imageOf (Channel.message (socket.lastId + 1) o
              timestamp))).endpoint p = k₁.endpoint p := rfl
          refine h₁.grows hendpoint (fun _ => rfl)
            (fun _ => StreamKernel.grows_deliver hhungUp p _) hsound₂ ?_
          refine (sentBy_append p k₁.deliveries [⟨p, c, _⟩]).trans ?_
          rw [h₁.outbox]
          simp [sentBy]
      | nothing c reply hclose hrecv hfails =>
          refine .ret ?_
          have hstatus := hfails (.inr (.inl ⟨_, _, rfl⟩))
          simp only [hstatus, ne_eq, not_true, decide_false, Bool.false_eq_true, if_false]
          exact h₁
    · rw [hassemble]
      exact .ret (h.reuse socket.buffer socket.lastId)

/-! ## Reading -/

omit [DecidableEq P] in
/-- What has been received has been sent, and nothing else has changed. -/
theorem of_take {s : StreamSession} {c : ℕ} (h : s.Of k c) (c' n : ℕ) : s.Of (k.take c' n) c := by
  have hlink : (k.take c' n).link c =
      if c = c' then { k.link c' with bytes := (k.link c').bytes.drop n } else k.link c :=
    Function.update_apply _ _ _ _
  have hflags : ((k.take c' n).link c).hungUp = (k.link c).hungUp ∧
      ((k.take c' n).link c).reset = (k.link c).reset := by
    rw [hlink]
    split
    · rename_i hc
      rw [hc]
      exact ⟨rfl, rfl⟩
    · exact ⟨rfl, rfl⟩
  refine ⟨h.inbox, fun hended => ?_, fun hended hreset => ?_⟩
  · rw [hflags.1]
    exact h.hungUp hended
  · rw [hflags.2] at hreset
    exact h.all hended hreset

omit [DecidableEq P] in
theorem of_resetLink {s : StreamSession} {c : ℕ} (h : s.Of k c) (c' : ℕ) : s.Of (k.resetLink c') c := by
  have hlink : (k.resetLink c').link c =
      if c = c' then { k.link c' with bytes := [], hungUp := true, reset := true } else k.link c :=
    Function.update_apply _ _ _ _
  refine ⟨h.inbox, fun hended => ?_, fun hended hreset => ?_⟩
  · rw [hlink]
    split
    · rfl
    · exact h.hungUp hended
  · rw [hlink] at hreset
    split at hreset
    · cases hreset
    · exact h.all hended hreset

/-- What a round leaves. -/
def RoundLeaves (r p : P) (sessions : List StreamSession) (sent : List (List UInt8))
    (res : StreamSocket × (ReadPoint ⊕ ReadResult)) (k : StreamKernel P) : Prop :=
  match res.2 with
  | .inl point => StreamKnown r p k res.1 point sessions sent
  | .inr result => SoundOutcome (.ok result) ∧
      StreamKnown r p k res.1 (.header 0) (sessions.modifyHead fun s => s.after result) sent

/-- The server has made a call on the connection behind `cfd_`. -/
theorem knows_round {s s' : StreamSession} {ss : List StreamSession} {c : ℕ} {cs : List ℕ}
    (h : StreamKnown r r k socket point (s :: ss) sent) (hcfd : socket.cfd ≠ -1)
    (hhead : k.accepted = c :: cs) {buffer : Memory UInt8} {point' : ReadPoint}
    (hserving : Serving k' r { socket with buffer } point' s' c) (haccepted : k'.accepted = k.accepted)
    (hdeliveries : k'.deliveries = k.deliveries) (hof : ∀ (s : StreamSession) c, s.Of k c → s.Of k' c)
    (hs : s.Of k c → s'.Of k' c) :
    StreamKnown r r k' { socket with buffer } point' (s' :: ss) sent where
  role := h.role
  outbox := by
    rw [hdeliveries]
    exact h.outbox
  down := h.down
  idle hclosed := absurd hclosed hcfd
  client hne := absurd rfl hne
  accepted _ := by
    have hall := h.accepted rfl
    rw [haccepted, hhead]
    rw [hhead] at hall
    cases hall with
    | cons hfirst hothers => exact .cons (hs hfirst) (hothers.imp hof)
  serving _ := ⟨s', ss, c, cs, rfl, haccepted.trans hhead, hserving⟩

section Round

variable {s : StreamSession} {ss : List StreamSession} {c : ℕ} {cs : List ℕ}

/-- The end of the connection. -/
theorem leaves_end (h : StreamKnown r r k socket point (s :: ss) sent) (hcfd : socket.cfd ≠ -1)
    (hhead : k.accepted = c :: cs) (hserving : Serving k r socket point s c)
    (hempty : (k.link c).bytes = []) (hhungUp : (k.link c).hungUp = true) :
    RoundLeaves r r (s :: ss) sent
      ({ socket with buffer := socket.buffer }, .inr (.error .connectionClosed)) (k.take c 0) := by
  have hlink : (k.take c 0).link c = { k.link c with bytes := (k.link c).bytes.drop 0 } :=
    Function.update_self _ _ _
  have hall : (k.link c).reset = false → sentTo c k.deliveries = s.inbox.map imageOf := by
    intro hreset
    obtain ⟨rest, hmessages, hsent, hbefore⟩ := hserving.rest hreset
    rw [hempty] at hbefore
    rw [hsent, (hbefore.nil hmessages).1, List.append_nil]
  have hserving' : Serving (k.take c 0) r { socket with buffer := socket.buffer } (.header 0)
      { s with ended := true } c := by
    refine ⟨hserving.endpoint, fun hreset => ?_, fun _ => ⟨rfl, ?_, ?_⟩⟩
    · rw [hlink] at hreset
      refine ⟨[], allMessages_nil, ?_, by decide, ?_⟩
      · rw [List.append_nil]
        exact hall hreset
      · rw [hlink, hempty]
        rfl
    · rw [hlink, hempty]
      rfl
    · rw [hlink]
      exact hhungUp
  refine ⟨.inr (.inr (.inr rfl)), knows_round h hcfd hhead hserving' rfl rfl
    (fun _ _ hof => of_take hof _ _) fun hof => ⟨hof.inbox, fun _ => ?_, fun _ hreset => ?_⟩⟩
  · rw [hlink]
    exact hhungUp
  · rw [hlink] at hreset
    exact (hall hreset).symm

/-- The connection has been reset. -/
theorem leaves_reset (h : StreamKnown r r k socket point (s :: ss) sent) (hcfd : socket.cfd ≠ -1)
    (hhead : k.accepted = c :: cs) (hserving : Serving k r socket point s c) :
    RoundLeaves r r (s :: ss) sent
      ({ socket with buffer := socket.buffer }, .inr (.error .readError)) (k.resetLink c) := by
  have hlink : (k.resetLink c).link c =
      { k.link c with bytes := [], hungUp := true, reset := true } := Function.update_self _ _ _
  have hserving' : Serving (k.resetLink c) r { socket with buffer := socket.buffer } (.header 0) s c := by
    refine ⟨hserving.endpoint, fun hreset => ?_, fun _ => ⟨rfl, ?_, ?_⟩⟩
    · rw [hlink] at hreset
      cases hreset
    · rw [hlink]
    · rw [hlink]
  exact ⟨.inr (.inr (.inl rfl)), knows_round h hcfd hhead hserving' rfl rfl
    (fun _ _ hof => of_resetLink hof _) fun hof => of_resetLink hof _⟩

/-- Some bytes arrive. -/
theorem leaves_bytes (h : StreamKnown r r k socket point (s :: ss) sent) (hcfd : socket.cfd ≠ -1)
    (hhead : k.accepted = c :: cs) (hserving : Serving k r socket point s c) {bytes : List UInt8}
    (hbytes : bytes <+: (k.link c).bytes) (hne : bytes ≠ []) (hcount : bytes.length ≤ window point) :
    RoundLeaves r r (s :: ss) sent
      ({ socket with buffer := (readRound socket.buffer point (.bytes bytes)).1 },
        (readRound socket.buffer point (.bytes bytes)).2) (k.take c bytes.length) := by
  obtain ⟨tail, htail⟩ := hbytes
  have hreset : (k.link c).reset = false := by
    -- nothing arrives on a connection that has been reset
    rw [Bool.eq_false_iff]
    intro hreset
    rw [(hserving.reset hreset).2.1] at htail
    exact hne (List.append_eq_nil_iff.mp htail).1
  obtain ⟨rest, hall, hsent, hbefore⟩ := hserving.rest hreset
  rw [← htail] at hbefore
  have hlink : (k.take c bytes.length).link c = { k.link c with bytes := tail } := by
    refine (Function.update_self _ _ _).trans ?_
    rw [← htail, List.drop_left]
  have hnot : ((k.take c bytes.length).link c).reset ≠ true := by
    rw [hlink, hreset]
    exact Bool.false_ne_true
  rcases hbefore.round hall hne hcount with ⟨buffer, point', hround, hbefore'⟩ |
    ⟨buffer, m, rest', rfl, hround, hbefore'⟩
  · -- the round goes on
    rw [hround]
    have hserving' : Serving (k.take c bytes.length) r { socket with buffer } point' s c := by
      refine ⟨hserving.endpoint, fun _ => ⟨rest, hall, hsent, ?_⟩, fun hreset' => absurd hreset' hnot⟩
      rw [hlink]
      exact hbefore'
    exact knows_round h hcfd hhead hserving' rfl rfl (fun _ _ hof => of_take hof _ _)
      fun hof => of_take hof _ _
  · -- a message is there
    rw [hround]
    have hsent' : sentTo c k.deliveries = ((s.inbox ++ [m]) ++ rest').map imageOf := by
      rw [hsent, List.append_assoc]
      rfl
    have hserving' : Serving (k.take c bytes.length) r { socket with buffer } (.header 0)
        { s with inbox := s.inbox ++ [m] } c := by
      refine ⟨hserving.endpoint, fun _ => ⟨rest', (List.forall_mem_cons.mp hall).2, hsent', ?_⟩,
        fun hreset' => absurd hreset' hnot⟩
      rw [hlink]
      exact hbefore'
    refine ⟨.inl ⟨m, rfl⟩, knows_round h hcfd hhead hserving' rfl rfl (fun _ _ hof => of_take hof _ _)
      fun hof => ⟨?_, fun hended => ?_, fun hended _ => ?_⟩⟩
    · change (s.inbox ++ [m]).map imageOf <+: sentTo c k.deliveries
      rw [hsent']
      exact (List.prefix_append (s.inbox ++ [m]) rest').map imageOf
    · rw [hlink]
      exact hof.hungUp hended
    · -- the end has not been found yet
      have hlength := congrArg List.length ((hof.all hended hreset).trans hsent')
      simp only [List.length_map, List.length_append, List.length_singleton] at hlength
      omega

end Round

/-- **One round of `read`**. -/
theorem safe_round (hcfd : socket.cfd ≠ -1) (h : StreamKnown r p k socket point sessions sent) :
    StreamSafe r p (RoundLeaves r p sessions sent) (socket.roundProgram point) k := by
  have hp : p = r := by
    by_contra hp
    exact hcfd (h.client hp)
  subst hp
  refine h.callHarmless trivial fun k₁ reply k₂ h₁ hsound hharmless heffect => ?_
  obtain ⟨s, ss, c, cs, rfl, hhead, hserving⟩ := h₁.serving hcfd
  cases heffect with
  | recv fd count bytes c' hfd hbytes hcount hend =>
      cases hserving.endpoint.symm.trans hfd
      by_cases hnil : bytes = []
      · subst hnil
        have hround : readRound socket.buffer point (recvResult (.bytes [])) =
            (socket.buffer, .inr (.error .connectionClosed)) := by
          cases point <;> rfl
        rw [hround]
        exact .ret (leaves_end h₁ hcfd hhead hserving (hend rfl).1 (hend rfl).2)
      · exact .ret (leaves_bytes h₁ hcfd hhead hserving hbytes hnil hcount)
  | reset fd count c' hfd =>
      cases hserving.endpoint.symm.trans hfd
      have hround : readRound socket.buffer point (recvResult .reset) =
          (socket.buffer, .inr (.error .readError)) := by
        cases point <;> rfl
      rw [hround]
      exact .ret (leaves_reset h₁ hcfd hhead hserving)
  | nothing call reply hclose hrecv =>
      obtain ⟨again, rfl⟩ := hrecv _ _ rfl
      obtain rfl : again = true := hharmless
      -- there is nothing to receive yet: only before a message `read` returns
      cases point with
      | header amount =>
          cases amount with
          | zero => exact .ret ⟨.inr (.inl rfl), h₁⟩
          | succ amount => exact .ret h₁
      | body header amount => exact .ret h₁

end StreamSocket

/-! ## Methods -/

namespace StreamParty

/-- The last call of `read` has not ended in another way. -/
def Sound (l : StreamParty) : Prop := ∀ result, l.last = some (.read result) → SoundOutcome (.ok result)

/-- What a party knows between two methods. -/
def Between (r p : P) (l : StreamParty) (k : StreamKernel P) : Prop :=
  StreamKnown r p k l.socket l.point l.sessions (l.outbox.map imageOf) ∧ l.Sound

/-- The next round of a `read`. -/
theorem between_round {l : StreamParty} (hcfd : l.socket.cfd ≠ -1) (h : Between r p l k) :
    StreamSafe r p (Between r p) l.round k := by
  refine .bind ((StreamSocket.safe_round hcfd h.1).mono ?_)
  rintro ⟨socket, left⟩ k' hleaves
  cases left with
  | inl point => exact .ret ⟨hleaves, nofun⟩
  | inr result =>
      refine .ret ⟨hleaves.2, fun result' hlast => ?_⟩
      cases hlast
      exact hleaves.1

/-- **Every method leaves a party with what it has sent and read**. -/
theorem between_method {l : StreamParty} (j : StreamJob) (h : Between r p l k) :
    StreamSafe r p (Between r p) (l.method j) k := by
  unfold method
  split
  · rename_i hpoint
    have hknown := h.1
    rw [hpoint] at hknown
    have hafter : ∀ {socket : StreamSocket} {sessions : List StreamSession}
        {outbox : List (DataHeader × DataObject)} {last : StreamReport} {k : StreamKernel P},
        (∀ result, last ≠ .read result) →
        StreamKnown r p k socket (.header 0) sessions (outbox.map imageOf) →
        Between r p { l with socket, sessions, outbox, last := some last } k := by
      intro socket sessions outbox last k hlast hk
      rw [← hpoint] at hk
      exact ⟨hk, fun result heq => absurd (Option.some.inj heq) (hlast result)⟩
    cases j with
    | openHandler =>
        exact .bind ((StreamSocket.safe_openHandler hknown).mono
          fun _ _ hopened => .ret (hafter nofun hopened))
    | closeHandler =>
        exact .bind ((StreamSocket.safe_closeHandler hknown).mono
          fun _ _ hclosed => .ret (hafter nofun hclosed))
    | destroy =>
        exact .bind ((StreamSocket.safe_destroy hknown).mono
          fun _ _ hclosed => .ret (hafter nofun hclosed))
    | accept =>
        exact .bind ((StreamSocket.safe_accept hknown).mono
          fun _ _ haccepted => .ret (hafter nofun haccepted))
    | awaitData =>
        exact .bind ((StreamSocket.safe_awaitData hknown).mono
          fun _ _ hawaited => .ret (hafter nofun hawaited))
    | hasData =>
        exact .bind ((StreamSocket.safe_hasData hknown).mono
          fun _ _ hpolled => .ret (hafter nofun hpolled))
    | write o timestamp =>
        refine .bind ((StreamSocket.safe_write hknown o timestamp).mono ?_)
        rintro ⟨success, socket⟩ k' hsent
        refine .ret (hafter nofun ?_)
        cases success with
        | true =>
            simp only [if_true, List.map_append, List.map_singleton] at hsent ⊢
            exact hsent
        | false => exact hsent
    | read =>
        dsimp only
        split
        · refine .ret ⟨h.1, fun result hlast => ?_⟩
          cases hlast
          exact .inr (.inr (.inr rfl))
        · rename_i hcfd
          exact between_round hcfd h
  · rename_i hpoint
    exact between_round (fun hcfd => hpoint (h.1.idle hcfd)) h

end StreamParty

/-- The parties keep to what they allow each other. -/
def StreamSocket.rules (r : P) : (system P).Rules where
  inv := StreamKernel.Sound r
  rely := StreamKernel.Allows r
  idle := StreamParty.Between r
  allowed _ _ := True
  granted := StreamKernel.Harmless
  rely_refl := StreamKernel.Allows.refl r
  rely_trans _ _ _ _ h h' := h.trans h'
  idle_stable _ _ _ _ h hrely hinv := ⟨h.1.of_allows hrely hinv, h.2⟩
  method_safe _ _ j _ _ h _ := StreamParty.between_method j h

/-! ## Runs -/

/-- **What holds of the server**, between two methods. -/
structure StreamParty.Gathering (r : P) (k : StreamKernel P) (l : StreamParty) : Prop where
  /-- Of every connection it has accepted, what has been read is what was sent first, and all of it when
  its end has been found. -/
  sessions : List.Forall₂ (StreamSession.Of k) l.sessions k.accepted
  /-- Of the last one, the rest is still to be received. -/
  serving (h : l.socket.cfd ≠ -1) : ∃ s ss c cs, l.sessions = s :: ss ∧ k.accepted = c :: cs ∧
    Serving k r l.socket l.point s c ∧
    -- if nothing is, everything has been read
    ((k.link c).reset = false → (k.link c).bytes = [] → s.inbox.map imageOf = sentTo c k.deliveries)

/-- **A stream socket and its clients**: in every run, one system call at a time, with whatever failing
that is harmless, no read goes wrong, every message a client was told to be written has been sent on a
connection of its own, connections are accepted once and in the order in which they were made, and the
server reads on each of them, in order, what was sent on it, and nothing else. -/
theorem StreamSocket.sessions_of_run (r : P) {sockets : P → StreamSocket}
    (hclosed : ∀ p, (sockets p).cfd = -1) (hserver : ∀ p, (sockets p).server = decide (p = r))
    {actions : List (system P).Action} {t : (system P).State}
    (hharmless : Along (system P).step (Parallel.Grants StreamKernel.Harmless) (start sockets) actions)
    (hrun : runAll (system P).step (start sockets) actions = some t) :
    (∀ p l, t.parties p = .ret l →
      sentBy p t.shared.deliveries = l.outbox.map imageOf ∧ l.Sound) ∧
    (∀ d ∈ t.shared.deliveries, t.shared.clients[d.file]? = some d.sender) ∧
    (t.shared.accepted.reverse ++ t.shared.waiting.getD []).Pairwise (· < ·) ∧
    ∀ l, t.parties r = .ret l → l.Gathering r t.shared := by
  have hstart : ∀ p, ∃ l, (start sockets).parties p = .ret l ∧
      (rules r).idle p l (start sockets).shared := by
    refine fun p => ⟨_, rfl, ⟨hserver p, rfl, fun _ => hclosed p, fun _ => rfl, fun _ => hclosed p,
      fun _ => .nil, fun hopen => absurd (hclosed p) hopen⟩, nofun⟩
  have hinv : (rules r).inv (start sockets).shared := StreamKernel.sound_initial r
  obtain ⟨hsound, hidle⟩ := (rules r).run hinv hstart (fun _ _ _ => trivial) hharmless hrun
  refine ⟨fun p l hparty => ⟨(hidle p l hparty).1.outbox, (hidle p l hparty).2⟩, hsound.sender,
    hsound.increasing, fun l hparty => ?_⟩
  have hknown := (hidle r l hparty).1
  refine ⟨hknown.accepted rfl, fun hcfd => ?_⟩
  obtain ⟨s, ss, c, cs, hsessions, hhead, hserving⟩ := hknown.serving hcfd
  refine ⟨s, ss, c, cs, hsessions, hhead, hserving, fun hreset hempty => ?_⟩
  obtain ⟨rest, hall, hsent, hbefore⟩ := hserving.rest hreset
  rw [hempty] at hbefore
  rw [hsent, (hbefore.nil hall).1, List.append_nil]

/-- A client connects, writes a message and leaves; the server receives the message in two pieces, and
then finds the end of the connection. -/
def shortVisit : List (StreamSocket.system Bool).Action :=
  [.begin true .openHandler, .reply true (.value 3), .reply true (.value 0), .reply true (.value 0),
    .reply true (.value 0), .begin false .openHandler, .reply false (.value 3), .reply false (.value 0),
    .begin true .awaitData, .begin false (.write .ping 7), .reply false (.value 16),
    .reply true (.value 1), .reply true (.value 4), .reply true (.value 1),
    .begin true .read, .reply true (.bytes ((imageOf (Channel.message 1 .ping 7)).take 5)),
    .begin false .closeHandler, .reply false (.value 0),
    .begin true .read, .reply true (.bytes ((imageOf (Channel.message 1 .ping 7)).drop 5)),
    .begin true .read, .reply true (.bytes [])]

/-- The message is the only one of the only session. -/
theorem StreamSocket.sessions_of_run_shortVisit : ∃ t l,
    runAll (system Bool).step (start fun p => ⟨p, true, -1, -1, 0, fun _ => 0⟩) shortVisit = some t ∧
    t.parties true = .ret l ∧ l.sessions = [⟨[Channel.message 1 .ping 7], true⟩] ∧
    l.Gathering true t.shared := by
  obtain ⟨t, hrun⟩ : ∃ t, runAll (system Bool).step
      (start fun p => ⟨p, true, -1, -1, 0, fun _ => 0⟩) shortVisit = some t := ⟨_, rfl⟩
  have hserver : ∃ l, t.parties true = .ret l ∧
      l.sessions = [⟨[Channel.message 1 .ping 7], true⟩] := by
    cases hrun
    exact ⟨_, rfl, rfl⟩
  obtain ⟨l, hparty, hsessions⟩ := hserver
  have hrole : ∀ p : Bool, p = decide (p = true) := by decide
  have hharmless : Along (system Bool).step (Parallel.Grants StreamKernel.Harmless)
      (start fun p => ⟨p, true, -1, -1, 0, fun _ => 0⟩) shortVisit := by decide +kernel
  exact ⟨t, l, hrun, hparty, hsessions,
    (sessions_of_run true (fun _ => rfl) hrole hharmless hrun).2.2.2 l hparty⟩

end IpcPerformance
