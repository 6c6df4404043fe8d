import IpcPerformance.Handler.NamedHandlers

/-! # The descriptors of handlers with a name

The system calls of `Fifo`, `MessageQueue` and `DatagramSocket` that open or close a descriptor. Between
any two methods a handler holds what is in its descriptor field, whatever the system calls return, and
whatever the other handlers with its name do in the meantime.

* `DescriptorSafe.opens`, `keeps`, `closes` — the rules for system calls.
* `NamedClass.Settling` — what the methods of a class do with descriptors.
* `NamedKind.settled_run` — of any number of handlers with the same name, each closes what it has opened,
  once, and holds one descriptor at a time. -/

namespace IpcPerformance

variable {P α : Type} [DecidableEq P]

/-! ## System calls -/

namespace KernelCall

/-- The calls that return a descriptor. -/
def Opens : KernelCall → Prop
  | openFile | openQueue | socket => True
  | _ => False

/-- The calls that neither open nor close a descriptor. -/
def Keeps : KernelCall → Prop
  | openFile | openQueue | socket | close _ => False
  | _ => True

end KernelCall

/-- No more than one descriptor. -/
def AtMostOne (held : Multiset ℤ) : Prop := held.card ≤ 1

/-- The handler `p` holds the descriptor `fd` and no other one, or none if that is `-1`, and it has never
held two. -/
def Holding (k : Kernel P) (p : P) (fd : ℤ) : Prop :=
  Ledger.SettlesWithin AtMostOne (k.log p) (if fd = -1 then 0 else {fd})

variable {p : P} {k k' : Kernel P} {c : KernelCall} {r : KernelReply} {fd : ℤ}

/-- The log of a handler is its own. -/
theorem Kernel.Effect.log_of_ne (h : Kernel.Effect p k c r k') {q : P} (hq : q ≠ p) :
    k'.log q = k.log q := by
  cases h with
  | openFile fd file hname => exact Function.update_of_ne hq _ _
  | openQueue fd => exact Function.update_of_ne hq _ _
  | socket fd => exact Function.update_of_ne hq _ _
  | close fd => exact Function.update_of_ne hq _ _
  | _ => rfl

omit [DecidableEq P] in
/-- A descriptor is acquired. -/
theorem Holding.acquired (h : Holding k p (-1)) {fd : ℕ}
    (hlog : k'.log p = k.log p ++ [.acquired (fd : ℤ)]) : Holding k' p fd := by
  have hfd : (fd : ℤ) ≠ -1 := by omega
  rw [Holding, if_pos rfl] at h
  rw [Holding, if_neg hfd, hlog, ← Multiset.cons_zero]
  exact h.acquire (by rw [AtMostOne, Multiset.card_cons, Multiset.card_zero])

omit [DecidableEq P] in
/-- It is released. -/
theorem Holding.released (h : Holding k p fd) (hfd : fd ≠ -1)
    (hlog : k'.log p = k.log p ++ [.released fd]) : Holding k' p (-1) := by
  rw [Holding, if_neg hfd, ← Multiset.cons_zero] at h
  rw [Holding, if_pos rfl, hlog]
  exact h.release (Nat.zero_le _)

/-- A call that opens a descriptor, or fails. -/
theorem Holding.opens (h : Holding k p (-1)) (hc : c.Opens) (heffect : k.Effect p c r k') :
    Holding k' p r.status := by
  cases heffect with
  | openFile fd file hname => exact h.acquired (Function.update_self ..)
  | openQueue fd => exact h.acquired (Function.update_self ..)
  | socket fd => exact h.acquired (Function.update_self ..)
  | failed c again => exact h
  | _ => exact hc.elim

/-- A call that does not. -/
theorem Holding.keeps (h : Holding k p fd) (hc : c.Keeps) (heffect : k.Effect p c r k') :
    Holding k' p fd := by
  cases heffect with
  | openFile fd file hname => exact hc.elim
  | openQueue fd => exact hc.elim
  | socket fd => exact hc.elim
  | close fd => exact hc.elim
  | _ => exact h

/-! ## Programs -/

/-- A program that is safe when it comes to descriptors: the others see nothing of its log. -/
def DescriptorSafe (p : P) (post : α → Kernel P → Prop) (program : KernelProgram α) (k : Kernel P) :
    Prop :=
  program.Safe Kernel.answer (fun _ _ _ => True) (fun _ => True) (fun q k k' => k'.log q = k.log q) p
    post k

variable {post : α → Kernel P → Prop} {next : KernelReply → KernelProgram α}

theorem DescriptorSafe.ret {a : α} (h : post a k) : DescriptorSafe p post (.ret a) k := h

/-- A call, whatever is done before it. -/
theorem DescriptorSafe.call
    (h : ∀ (k₁ : Kernel P) (r : KernelReply) (k₂ : Kernel P), k₁.log p = k.log p →
      k₁.Effect p c r k₂ → DescriptorSafe p post (next r) k₂) :
    DescriptorSafe p post (.call c next) k := by
  intro k₁ hrely _ r k₂ _ hanswer
  have heffect := Kernel.effect_of_answer hanswer
  exact ⟨trivial, fun q hq => heffect.log_of_ne hq, h k₁ r k₂ hrely heffect⟩

omit [DecidableEq P] in
/-- What is held is held when the call is made. -/
theorem Holding.of_log_eq (h : Holding k p fd) (hlog : k'.log p = k.log p) : Holding k' p fd := by
  rwa [Holding, hlog]

/-- **The rule for calls that open**: the handler holds what is returned. -/
theorem DescriptorSafe.opens (hc : c.Opens) (h : Holding k p (-1))
    (hnext : ∀ r k', Holding k' p r.status → DescriptorSafe p post (next r) k') :
    DescriptorSafe p post (.call c next) k :=
  .call fun _ r k₂ hlog heffect => hnext r k₂ ((h.of_log_eq hlog).opens hc heffect)

/-- **The rule for calls that keep**. -/
theorem DescriptorSafe.keeps (hc : c.Keeps) (h : Holding k p fd)
    (hnext : ∀ r k', Holding k' p fd → DescriptorSafe p post (next r) k') :
    DescriptorSafe p post (.call c next) k :=
  .call fun _ r k₂ hlog heffect => hnext r k₂ ((h.of_log_eq hlog).keeps hc heffect)

/-- **The rule for `close`**. -/
theorem DescriptorSafe.closes (hfd : fd ≠ -1) (h : Holding k p fd)
    (hnext : ∀ r k', Holding k' p (-1) → DescriptorSafe p post (next r) k') :
    DescriptorSafe p post (.call (.close fd) next) k := by
  refine .call fun k₁ r k₂ hlog heffect => hnext r k₂ ?_
  cases heffect with
  | close fd r => exact (h.of_log_eq hlog).released hfd (Function.update_self ..)
  | failed c again hunlink hclose => exact absurd rfl (hclose fd)

/-- One program after the other. -/
theorem DescriptorSafe.bind {β : Type} {post : β → Kernel P → Prop} {program : KernelProgram α}
    {f : α → KernelProgram β}
    (h : DescriptorSafe p (fun a k => DescriptorSafe p post (f a) k) program k) :
    DescriptorSafe p post (program.bind f) k :=
  Program.Safe.bind h

/-! ## Classes -/

/-- What the methods of a class do with descriptors: between them a handler holds what is in its
descriptor field, and the results say so. -/
structure NamedClass.Settling (c : NamedClass) : Prop where
  openHandler {P : Type} [DecidableEq P] {p : P} {k : Kernel P} (readonly : Bool) (h : c.Handler)
    (hheld : Holding k p (c.descriptor h)) :
    DescriptorSafe p (fun r k => Holding k p (c.descriptor r.2) ∧ (r.1 = true ↔ c.descriptor r.2 ≠ -1))
      (c.openHandler readonly h) k
  closeHandler {P : Type} [DecidableEq P] {p : P} {k : Kernel P} (readonly : Bool) (h : c.Handler)
    (hheld : Holding k p (c.descriptor h)) :
    DescriptorSafe p (fun r k => Holding k p (c.descriptor r.2) ∧ c.descriptor r.2 = -1)
      (c.closeHandler readonly h) k
  write {P : Type} [DecidableEq P] {p : P} {k : Kernel P} (h : c.Handler)
    (hheld : Holding k p (c.descriptor h)) (o : DataObject) (timestamp : Int64) :
    DescriptorSafe p (fun r k => Holding k p (c.descriptor r.2)) (c.write h o timestamp) k
  read {P : Type} [DecidableEq P] {p : P} {k : Kernel P} (h : c.Handler)
    (hheld : Holding k p (c.descriptor h)) :
    DescriptorSafe p (fun r k => Holding k p (c.descriptor r.2)) (c.read h) k

/-- Sending does not change what is held. -/
theorem Holding.sendProgram (h : Holding k p fd) (isOpen : Bool) (buffer : Memory UInt8)
    (lastId : UInt32) (o : DataObject) (timestamp : Int64) {sendCall : List UInt8 → KernelCall}
    (hcall : ∀ bytes, (sendCall bytes).Keeps) :
    DescriptorSafe p (fun _ k => Holding k p fd)
      (sendProgram isOpen buffer lastId o timestamp sendCall) k := by
  unfold IpcPerformance.sendProgram
  split
  · split
    · exact .ret h
    · exact .keeps (hcall _) h fun _ _ h => .ret h
  · exact .ret h

/-- The second half of `Fifo::open` and of `MessageQueue::open`: what cannot be opened is removed by a
reader. -/
theorem Holding.openProgram {H : Type} {c : KernelCall} (hc : c.Opens) (handler : ℤ → H)
    (descriptor : H → ℤ) (hset : ∀ fd, descriptor (handler fd) = fd) (readonly queue : Bool)
    (h : Holding k p (-1)) :
    DescriptorSafe p (fun (r : Bool × H) k => Holding k p (descriptor r.2) ∧
        (r.1 = true ↔ descriptor r.2 ≠ -1))
      (.call c fun r =>
        if descriptor (handler r.status) = -1 then
          if readonly = true then .call (.unlink queue) fun _ => .ret (false, handler r.status)
          else .ret (false, handler r.status)
        else .ret (true, handler r.status)) k := by
  refine .opens hc h fun r k h => ?_
  rw [hset]
  by_cases hfails : r.status = -1
  · have hclosed : Holding k p (descriptor (handler r.status)) ∧
        (false = true ↔ descriptor (handler r.status) ≠ -1) := by
      rw [hset]
      exact ⟨h, by simp [hfails]⟩
    rw [if_pos hfails]
    split
    · refine .keeps trivial h fun _ _ h => .ret ⟨?_, hclosed.2⟩
      rwa [hset]
    · exact .ret hclosed
  · rw [if_neg hfails]
    refine .ret ⟨?_, ?_⟩
    · rwa [hset]
    · rw [hset]
      simp [hfails]

/-- A pipe that is not open is opened. -/
theorem Fifo.settling_openPipe (readonly : Bool) (fifo : Fifo) (h : Holding k p (-1)) :
    DescriptorSafe p (fun r k => Holding k p r.2.fd ∧ (r.1 = true ↔ r.2.fd ≠ -1))
      (openPipe readonly fifo) k :=
  h.openProgram (show KernelCall.openFile.Opens from trivial)
    (fun fd => (⟨fd, fifo.lastId, fifo.buffer⟩ : Fifo)) fd (fun _ => rfl) readonly false

/-- Pipes. -/
theorem Fifo.settling : Fifo.named.Settling where
  openHandler readonly fifo hheld := by
    change DescriptorSafe _ _ (Fifo.openHandler readonly fifo) _
    unfold Fifo.openHandler
    split
    · rename_i hopen
      exact .ret ⟨hheld, by simp [named, hopen]⟩
    · rename_i hclosed
      have hclosed := not_not.mp hclosed
      change Holding _ _ fifo.fd at hheld
      rw [hclosed] at hheld
      split
      · refine .keeps trivial hheld fun _ k h => .keeps trivial h fun r k h => ?_
        split
        · exact .ret ⟨by rwa [← hclosed] at h, by simp [named, hclosed]⟩
        · exact settling_openPipe readonly fifo h
      · exact settling_openPipe readonly fifo hheld
  closeHandler readonly fifo hheld := by
    change DescriptorSafe _ _ (Fifo.closeHandler readonly fifo) _
    unfold Fifo.closeHandler
    split
    · rename_i hclosed
      exact .ret ⟨hheld, hclosed⟩
    · rename_i hopen
      refine .closes hopen hheld fun _ k h => ?_
      split
      · exact .keeps trivial h fun _ _ h => .ret ⟨h, rfl⟩
      · exact .ret ⟨h, rfl⟩
  write fifo hheld o timestamp :=
    .bind (hheld.sendProgram _ _ _ o timestamp fun _ => trivial)
  read fifo hheld := by
    change DescriptorSafe _ _ (Fifo.readProgram fifo) _
    unfold Fifo.readProgram
    split
    · exact .ret hheld
    · refine .keeps trivial hheld fun r k h => ?_
      split
      · exact .ret h
      · exact .keeps trivial h fun _ _ h => .ret h

/-- `mq_open`, and what follows. -/
theorem MessageQueue.settling_openQueue (readonly : Bool) (queue : MessageQueue)
    (h : Holding k p (-1)) :
    DescriptorSafe p (fun r k => Holding k p r.2.mqd ∧ (r.1 = true ↔ r.2.mqd ≠ -1))
      (openQueue readonly queue) k :=
  h.openProgram (show KernelCall.openQueue.Opens from trivial)
    (fun mqd => (⟨mqd, queue.lastId, queue.buffer⟩ : MessageQueue)) mqd (fun _ => rfl) readonly true

/-- Message queues. -/
theorem MessageQueue.settling : MessageQueue.named.Settling where
  openHandler readonly queue hheld := by
    change DescriptorSafe _ _ (MessageQueue.openHandler readonly queue) _
    unfold MessageQueue.openHandler
    split
    · rename_i hopen
      exact .ret ⟨hheld, by simp [named, hopen]⟩
    · rename_i hclosed
      change Holding _ _ queue.mqd at hheld
      rw [not_not.mp hclosed] at hheld
      -- a reader has removed the old queue before
      split
      · exact .keeps trivial hheld fun _ _ h => settling_openQueue readonly queue h
      · exact settling_openQueue readonly queue hheld
  closeHandler readonly queue hheld := by
    change DescriptorSafe _ _ (MessageQueue.closeHandler readonly queue) _
    unfold MessageQueue.closeHandler
    split
    · rename_i hclosed
      exact .ret ⟨hheld, hclosed⟩
    · rename_i hopen
      refine .closes hopen hheld fun _ k h => ?_
      split
      · exact .keeps trivial h fun _ _ h => .ret ⟨h, rfl⟩
      · exact .ret ⟨h, rfl⟩
  write queue hheld o timestamp :=
    .bind (hheld.sendProgram _ _ _ o timestamp fun _ => trivial)
  read queue hheld := by
    change DescriptorSafe _ _ (MessageQueue.readProgram queue) _
    unfold MessageQueue.readProgram
    split
    · exact .ret hheld
    · exact .keeps trivial hheld fun _ _ h => .ret h

/-- A local socket is closed. -/
theorem DatagramSocket.settling_closeHandler (server : Bool) (socket : DatagramSocket)
    (hheld : Holding k p socket.sfd) :
    DescriptorSafe p (fun r k => Holding k p r.2.sfd ∧ r.2.sfd = -1) (closeHandler server socket) k := by
  unfold closeHandler
  split
  · rename_i hclosed
    exact .ret ⟨hheld, hclosed⟩
  · rename_i hopen
    refine .closes hopen hheld fun _ k h => ?_
    split
    · exact .keeps trivial h fun _ _ h => .ret ⟨h, rfl⟩
    · exact .ret ⟨h, rfl⟩

/-- A local socket is created. The descriptor stays when `bind` fails. -/
theorem DatagramSocket.settling_create (server : Bool) (socket : DatagramSocket)
    (hheld : Holding k p (-1)) :
    DescriptorSafe p (fun r k => Holding k p r.2.sfd ∧ (r.1 = true → r.2.sfd ≠ -1))
      (if server then socket.createServer else socket.createClient) k := by
  split
  · refine .opens trivial hheld fun r k h => ?_
    by_cases hfails : r.status = -1
    · simp only [if_pos hfails]
      exact .ret ⟨h, nofun⟩
    · simp only [if_neg hfails]
      exact .keeps trivial h fun _ _ h => .keeps trivial h fun _ _ h => .ret ⟨h, fun _ => hfails⟩
  · exact .opens trivial hheld fun r _ h => .ret ⟨h, of_decide_eq_true⟩

/-- Local datagram sockets. -/
theorem DatagramSocket.settling : DatagramSocket.named.Settling where
  openHandler server socket hheld := by
    change DescriptorSafe _ _ (DatagramSocket.openHandler server socket) _
    unfold DatagramSocket.openHandler
    split
    · rename_i hopen
      exact .ret ⟨hheld, by simp [named, hopen]⟩
    · rename_i hclosed
      change Holding _ _ socket.sfd at hheld
      rw [not_not.mp hclosed] at hheld
      refine .bind ((settling_create server socket hheld).mono ?_)
      rintro ⟨created, socket⟩ k ⟨h, hcreated⟩
      cases created with
      | true => exact .ret ⟨h, by simp [named, hcreated rfl]⟩
      | false =>
          -- `close` gives up the descriptor, if there is one
          refine .bind ((settling_closeHandler server socket h).mono ?_)
          rintro ⟨_, socket⟩ k ⟨h, hclosed⟩
          exact .ret ⟨h, nofun, fun hopen => absurd hclosed hopen⟩
  closeHandler server socket hheld := settling_closeHandler server socket hheld
  write socket hheld o timestamp :=
    .bind (hheld.sendProgram _ _ _ o timestamp fun _ => trivial)
  read socket hheld := by
    change DescriptorSafe _ _ (DatagramSocket.readProgram socket) _
    unfold DatagramSocket.readProgram
    split
    · exact .ret hheld
    · exact .keeps trivial hheld fun _ _ h => .ret h

/-- All three classes. -/
theorem NamedKind.settling (kind : NamedKind) : kind.named.Settling := by
  cases kind with
  | fifo => exact Fifo.settling
  | queue => exact MessageQueue.settling
  | datagram => exact DatagramSocket.settling

/-! ## Runs -/

namespace NamedClass

variable {c : NamedClass}

/-- The result of the last method says whether the handler is open. -/
def Party.Reports (l : c.Party) : Prop :=
  match l.last with
  | some (.opened success) => success = true ↔ c.descriptor l.handler ≠ -1
  | some (.closed _) => c.descriptor l.handler = -1
  | some .destroyed => c.descriptor l.handler = -1
  | _ => True

/-- What holds of the descriptors of a handler between two methods. -/
structure Settled (k : Kernel P) (p : P) (l : c.Party) : Prop where
  /-- It holds the descriptor in its field, and has never held two. -/
  holding : Holding k p (c.descriptor l.handler)
  /-- It is open exactly if `open` has said so. -/
  reports : l.Reports
  /-- A handler that is closed has closed everything, once for every time it was opened. -/
  closed (hclosed : c.descriptor l.handler = -1) : Ledger.Settles (k.log p) 0 ∧
    ∀ fd, (k.log p).count (.acquired fd) = (k.log p).count (.released fd)

/-- The destructor leaves a handler closed. -/
theorem Settling.destroy (hc : c.Settling) (readonly : Bool) (h : c.Handler)
    (hheld : Holding k p (c.descriptor h)) :
    DescriptorSafe p (fun h k => Holding k p (c.descriptor h) ∧ c.descriptor h = -1)
      (c.destroy readonly h) k := by
  unfold NamedClass.destroy
  split
  · exact .bind ((hc.closeHandler readonly h hheld).mono fun _ _ hclosed => .ret hclosed)
  · rename_i hclosed
    exact .ret ⟨hheld, not_not.mp hclosed⟩

/-- Every method leaves in the field what is held. -/
theorem Settling.method (hc : c.Settling) (readonly : Bool) (l : c.Party) (j : NamedJob)
    (hheld : Holding k p (c.descriptor l.handler)) :
    DescriptorSafe p (fun l k => Holding k p (c.descriptor l.handler) ∧ l.Reports)
      (c.method readonly l j) k := by
  cases j with
  | openHandler =>
      refine .bind ((hc.openHandler readonly l.handler hheld).mono ?_)
      exact fun _ _ hopened => .ret hopened
  | closeHandler =>
      refine .bind ((hc.closeHandler readonly l.handler hheld).mono ?_)
      exact fun _ _ hclosed => .ret hclosed
  | destroy =>
      refine .bind ((hc.destroy readonly l.handler hheld).mono ?_)
      exact fun _ _ hclosed => .ret hclosed
  | write o timestamp =>
      refine .bind ((hc.write l.handler hheld o timestamp).mono ?_)
      exact fun _ _ hheld => .ret ⟨hheld, trivial⟩
  | read =>
      refine .bind ((hc.read l.handler hheld).mono ?_)
      exact fun _ _ hheld => .ret ⟨hheld, trivial⟩

/-- No handler sees the log of another one. -/
def Settling.rules (hc : c.Settling) (readonly : P → Bool) : (c.system readonly).Rules where
  inv _ := True
  rely p k k' := k'.log p = k.log p
  idle p l k := Holding k p (c.descriptor l.handler) ∧ l.Reports
  allowed _ _ := True
  granted _ _ _ := True
  rely_refl _ _ := rfl
  rely_trans _ _ _ _ h h' := h'.trans h
  idle_stable _ _ _ _ h hrely _ := ⟨h.1.of_log_eq hrely, h.2⟩
  method_safe p l j _ _ h _ := hc.method (readonly p) l j h.1

end NamedClass

/-- **The descriptors of handlers with a name**: any number of them, with whatever calls in whatever
order, one system call at a time, and whatever the system calls return. -/
theorem NamedKind.settled_run (kind : NamedKind) (readonly : P → Bool)
    {handlers : P → kind.named.Handler} (hnew : ∀ p, kind.named.descriptor (handlers p) = -1)
    {actions : List (kind.named.system readonly).Action} {t : (kind.named.system readonly).State}
    (hrun : runAll (kind.named.system readonly).step (kind.named.start readonly handlers) actions =
      some t) (p : P) {l : kind.named.Party} (hidle : t.parties p = .ret l) :
    NamedClass.Settled t.shared p l := by
  let rules := kind.settling.rules readonly
  have hstart : ∀ p, ∃ l, (kind.named.start readonly handlers).parties p = .ret l ∧
      rules.idle p l (kind.named.start readonly handlers).shared := by
    refine fun p => ⟨_, rfl, ?_, trivial⟩
    change Holding _ _ (kind.named.descriptor (handlers p))
    rw [hnew p]
    exact Ledger.SettlesWithin.nil (Nat.zero_le _)
  have hgranted : Along (kind.named.system readonly).step (Parallel.Grants rules.granted)
      (kind.named.start readonly handlers) actions :=
    Parallel.along_grants (fun _ _ _ _ _ => trivial) _
  obtain ⟨hheld, hreports⟩ := (rules.run trivial hstart (fun _ _ _ => trivial) hgranted hrun).2 p l hidle
  refine ⟨hheld, hreports, fun hclosed => ?_⟩
  have hsettles := hheld.settles
  rw [if_pos hclosed] at hsettles
  refine ⟨hsettles, fun fd => ?_⟩
  rw [hsettles.count_eq fd, Multiset.count_zero, add_zero]

/-- A writer opens the pipe as soon as it is there, but the reader fails to. -/
def failedReader : List (NamedKind.fifo.named.system (id : Bool → Bool)).Action :=
  [.begin true .openHandler, .reply true (.failed false), .begin false .openHandler,
    .reply true (.value 0), .reply false (.value 5), .reply true (.failed false),
    .reply true (.value 0), .begin false .destroy, .reply false (.value 0)]

/-- In the end both of them hold nothing. -/
theorem settled_run_failedReader : ∃ t,
    runAll (NamedKind.fifo.named.system id).step
      (NamedKind.fifo.named.start id fun _ => (⟨-1, 0, fun _ => 0⟩ : Fifo)) failedReader = some t ∧
    ∀ p, ∃ l, t.parties p = .ret l ∧ NamedClass.Settled t.shared p l := by
  obtain ⟨t, hrun⟩ : ∃ t, runAll (NamedKind.fifo.named.system id).step
      (NamedKind.fifo.named.start id fun _ => (⟨-1, 0, fun _ => 0⟩ : Fifo)) failedReader = some t :=
    ⟨_, rfl⟩
  have hidle : ∀ p, ∃ l, t.parties p = .ret l := by
    cases hrun
    intro p
    cases p <;> exact ⟨_, rfl⟩
  refine ⟨t, hrun, fun p => ?_⟩
  obtain ⟨l, hl⟩ := hidle p
  exact ⟨l, hl, NamedKind.settled_run .fifo id (fun _ => rfl) hrun p hl⟩

end IpcPerformance
