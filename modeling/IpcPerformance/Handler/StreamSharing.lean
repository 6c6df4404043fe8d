import IpcPerformance.Handler.StreamPrograms
import IpcPerformance.Handler.NameSharing

/-! # Sharing a stream socket

One of the handlers with a name is the server, the others are its clients. What the kernel does for one of
them is seen by the others as far as they share a connection.

* `StreamKernel.Sound` — the invariant of the kernel.
* `StreamKernel.Allows` — what the parties allow each other to do.
* `StreamKernel.Effect.sound`, `StreamKernel.Effect.allows` — permitted system calls keep to both. -/

namespace IpcPerformance

/-- What a connection has to do with the record of it. -/
def Endpoint.Belongs {P : Type} (r p : P) (clients : List P) (accepted : List ℕ) : Endpoint → Prop
  | .socket => True
  | .listener => p = r
  | .client c => clients[c]? = some p
  | .server c => p = r ∧ c ∈ accepted

theorem Endpoint.Belongs.mono {P : Type} {r p : P} {clients clients' : List P}
    {accepted accepted' : List ℕ} {e : Endpoint} (h : e.Belongs r p clients accepted)
    (hclients : clients <+: clients') (haccepted : accepted ⊆ accepted') :
    e.Belongs r p clients' accepted' := by
  cases e with
  | socket => trivial
  | listener => exact h
  | client c =>
      obtain ⟨new, rfl⟩ := hclients
      exact (List.getElem?_append_left (List.getElem?_eq_some_iff.mp h).1).trans h
  | server c => exact ⟨h.1, haccepted h.2⟩

/-- A system call that sends, accepts or receives. -/
def StreamCall.Transfers : StreamCall → Prop
  | .send _ _ | .accept _ | .recv _ _ => True
  | _ => False

namespace StreamKernel

variable {P : Type}

/-- **The invariant of the kernel**, for the server `r`. -/
structure Sound (r : P) (k : StreamKernel P) : Prop where
  /-- Only messages are sent. -/
  isImage (d : Delivery P) (h : d ∈ k.deliveries) : IsImage d.bytes
  /-- They are sent by the one who has made the connection. -/
  sender (d : Delivery P) (h : d ∈ k.deliveries) : k.clients[d.file]? = some d.sender
  /-- A descriptor is one of its client, or one of the server. -/
  belongs (p : P) (fd : ℤ) (e : Endpoint) (h : k.endpoint p fd = some e) :
    e.Belongs r p k.clients k.accepted
  /-- Connections are accepted in the order in which they are made. -/
  increasing : (k.accepted.reverse ++ k.waiting.getD []).Pairwise (· < ·)
  /-- They have been made. -/
  below (c : ℕ) (h : c ∈ k.accepted.reverse ++ k.waiting.getD []) : c < k.clients.length
  /-- Before that, nothing is received. -/
  unread (c : ℕ) (h : c ∉ k.accepted) :
    (k.link c).reset = false ∧ (k.link c).bytes = (sentTo c k.deliveries).flatten

/-- What the server allows its clients to do to a connection. -/
structure Grows (c : ℕ) (k k' : StreamKernel P) : Prop where
  /-- What is sent is there, but nothing is sent after the end. -/
  sent : ∃ new, sentTo c k'.deliveries = sentTo c k.deliveries ++ new ∧
    (k'.link c).bytes = (k.link c).bytes ++ new.flatten ∧ ((k.link c).hungUp = true → new = [])
  /-- The end is the end. -/
  hungUp (h : (k.link c).hungUp = true) : (k'.link c).hungUp = true
  /-- Only the server finds that a connection has been reset. -/
  reset : (k'.link c).reset = (k.link c).reset

/-- What a party allows the others to do, for the server `r`. -/
structure Allows [DecidableEq P] (r p : P) (k k' : StreamKernel P) : Prop where
  /-- Descriptors are private. -/
  endpoint : k'.endpoint p = k.endpoint p
  /-- So is what has been sent. -/
  sentBy : sentBy p k'.deliveries = sentBy p k.deliveries
  /-- Only the server accepts. -/
  accepted (h : p = r) : k'.accepted = k.accepted
  /-- Only it receives. -/
  grows (h : p = r) (c : ℕ) : Grows c k k'

/-- The system calls a party may make. -/
def Permitted (r p : P) : StreamCall → Prop
  | .listen _ => p = r
  | .send _ bytes => IsImage bytes
  | _ => True

/-- Nothing is sent, accepted or received. -/
structure Quiet (k k' : StreamKernel P) : Prop where
  deliveries : k'.deliveries = k.deliveries
  accepted : k'.accepted = k.accepted
  bytes (c : ℕ) : (k'.link c).bytes = (k.link c).bytes
  hungUp (c : ℕ) (h : (k.link c).hungUp = true) : (k'.link c).hungUp = true
  reset (c : ℕ) : (k'.link c).reset = (k.link c).reset

variable {r p : P} {k k' k'' : StreamKernel P} {c : ℕ} {call : StreamCall} {reply : KernelReply}

/-! ## What the others may do -/

theorem Quiet.refl (k : StreamKernel P) : Quiet k k := ⟨rfl, rfl, fun _ => rfl, fun _ h => h, fun _ => rfl⟩

theorem Quiet.grows (h : Quiet k k') (c : ℕ) : Grows c k k' where
  sent := ⟨[], by rw [h.deliveries, List.append_nil], by rw [h.bytes]; exact (List.append_nil _).symm,
    fun _ => rfl⟩
  hungUp := h.hungUp c
  reset := h.reset c

theorem Grows.trans (h : Grows c k k') (h' : Grows c k' k'') : Grows c k k'' where
  sent := by
    obtain ⟨new, hsent, hbytes, hend⟩ := h.sent
    obtain ⟨new', hsent', hbytes', hend'⟩ := h'.sent
    refine ⟨new ++ new', ?_, ?_, fun hhungUp => ?_⟩
    · rw [hsent', hsent, List.append_assoc]
    · rw [hbytes', hbytes, List.flatten_append, List.append_assoc]
    · rw [hend hhungUp, hend' (h.hungUp hhungUp)]
      rfl
  hungUp hhungUp := h'.hungUp (h.hungUp hhungUp)
  reset := h'.reset.trans h.reset

theorem Allows.refl [DecidableEq P] (r p : P) (k : StreamKernel P) : Allows r p k k :=
  ⟨rfl, rfl, fun _ => rfl, fun _ => (Quiet.refl k).grows⟩

theorem Allows.trans [DecidableEq P] (h : Allows r p k k') (h' : Allows r p k' k'') :
    Allows r p k k'' where
  endpoint := h'.endpoint.trans h.endpoint
  sentBy := h'.sentBy.trans h.sentBy
  accepted hp := (h'.accepted hp).trans (h.accepted hp)
  grows hp c := (h.grows hp c).trans (h'.grows hp c)

/-- What is sent on a connection consists of messages. -/
theorem Sound.exists_sentTo (h : Sound r k) (c : ℕ) :
    ∃ ms, AllMessages ms ∧ sentTo c k.deliveries = ms.map imageOf := by
  refine exists_messages fun bytes hbytes => ?_
  obtain ⟨d, hd, rfl⟩ := List.mem_map.mp hbytes
  exact h.isImage d (List.mem_of_mem_filter hd)

theorem sound_initial [DecidableEq P] (r : P) : Sound r (initial : StreamKernel P) where
  isImage _ h := by cases h
  sender _ h := by cases h
  belongs _ _ _ h := by cases h
  increasing := .nil
  below _ h := by cases h
  unread _ _ := ⟨rfl, rfl⟩

/-! ## System calls -/

variable [DecidableEq P]

/-- A descriptor is what it was, or what it has become. -/
theorem endpoint_assign {q : P} {fd fd' : ℤ} {e : Option Endpoint} {x : Endpoint}
    (h : (k.assign p fd e).endpoint q fd' = some x) :
    k.endpoint q fd' = some x ∨ q = p ∧ e = some x := by
  change Function.update k.endpoint p (Function.update (k.endpoint p) fd e) q fd' = _ at h
  rw [Function.update_apply] at h
  split at h
  · rename_i hq
    rw [Function.update_apply] at h
    split at h
    · exact .inr ⟨hq, h⟩
    · rw [hq]
      exact .inl h
  · exact .inl h

/-- The descriptors of the others are what they were. -/
theorem endpoint_assign_of_ne {q : P} (hq : q ≠ p) (fd : ℤ) (e : Option Endpoint) :
    (k.assign p fd e).endpoint q = k.endpoint q :=
  Function.update_of_ne hq _ _

/-- A descriptor becomes something it may be. -/
theorem Sound.assign (h : Sound r k) (fd : ℤ) {e : Option Endpoint}
    (he : ∀ x, e = some x → x.Belongs r p k.clients k.accepted) : Sound r (k.assign p fd e) where
  isImage := h.isImage
  sender := h.sender
  belongs q fd' x hx := by
    rcases endpoint_assign hx with hx | ⟨rfl, he'⟩
    · exact h.belongs q fd' x hx
    · exact he x he'
  increasing := h.increasing
  below := h.below
  unread := h.unread

omit [DecidableEq P] in
/-- A connection that is in use becomes something else. -/
theorem Sound.setLink (h : Sound r k) (l : Link)
    (hl : c ∉ k.accepted → l.reset = (k.link c).reset ∧ l.bytes = (k.link c).bytes) :
    Sound r (k.setLink c l) where
  isImage := h.isImage
  sender := h.sender
  belongs := h.belongs
  increasing := h.increasing
  below := h.below
  unread c' hc' := by
    change (Function.update k.link c l c').reset = false ∧ (Function.update k.link c l c').bytes = _
    rw [Function.update_apply]
    split
    · rename_i hc
      subst hc
      rw [(hl hc').1, (hl hc').2]
      exact h.unread _ hc'
    · exact h.unread _ hc'

omit [DecidableEq P] in
/-- Those who wait have nobody to talk to. -/
theorem quiet_hangUp (k : StreamKernel P) (e : Endpoint) : Quiet k (k.hangUp e) := by
  have hset : ∀ (c : ℕ) (l : Link), l.bytes = (k.link c).bytes → l.reset = (k.link c).reset →
      ((k.link c).hungUp = true → l.hungUp = true) → Quiet k (k.setLink c l) := by
    intro c l hbytes hreset hhungUp
    refine ⟨rfl, rfl, fun c' => ?_, fun c' hc' => ?_, fun c' => ?_⟩ <;>
      simp only [StreamKernel.setLink, Function.update_apply] <;> split
    · rename_i hc
      rw [hc, hbytes]
    · rfl
    · rename_i hc
      rw [hc] at hc'
      exact hhungUp hc'
    · exact hc'
    · rename_i hc
      rw [hc, hreset]
    · rfl
  cases e with
  | socket => exact .refl k
  | listener =>
      refine ⟨rfl, rfl, fun c => ?_, fun c hc => ?_, fun c => ?_⟩ <;>
        simp only [hangUp] <;> split <;> first | rfl | exact hc
  | client c => exact hset c _ rfl rfl fun _ => rfl
  | server c => exact hset c _ rfl rfl id

omit [DecidableEq P] in
theorem Sound.hangUp (h : Sound r k) (e : Endpoint) : Sound r (k.hangUp e) := by
  cases e with
  | socket => exact h
  | listener =>
      have hquiet := quiet_hangUp k .listener
      refine ⟨h.isImage, h.sender, h.belongs, ?_, ?_, fun c hc => ?_⟩
      · change (k.accepted.reverse ++ []).Pairwise (· < ·)
        rw [List.append_nil]
        exact (List.pairwise_append.mp h.increasing).1
      · intro c hc
        change c ∈ k.accepted.reverse ++ [] at hc
        rw [List.append_nil] at hc
        exact h.below c (List.mem_append_left _ hc)
      · rw [hquiet.reset, hquiet.bytes]
        exact h.unread c hc
  | client c => exact h.setLink _ fun _ => ⟨rfl, rfl⟩
  | server c => exact h.setLink _ fun _ => ⟨rfl, rfl⟩

omit [DecidableEq P] in
/-- What is sent on one connection is at the end of it, and the others are as they were. -/
theorem exists_deliver (k : StreamKernel P) (p : P) (c : ℕ) (bytes : List UInt8) (c' : ℕ) :
    ∃ new, (c' = c ∨ new = []) ∧
      sentTo c' (k.deliver p c bytes).deliveries = sentTo c' k.deliveries ++ new ∧
      (k.deliver p c bytes).link c' =
        { k.link c' with bytes := (k.link c').bytes ++ new.flatten } := by
  have hlink : (k.deliver p c bytes).link c' =
      if c' = c then { k.link c with bytes := (k.link c).bytes ++ bytes } else k.link c' :=
    Function.update_apply _ _ _ _
  have hsent : sentTo c' (k.deliver p c bytes).deliveries =
      sentTo c' k.deliveries ++ sentTo c' [⟨p, c, bytes⟩] := sentTo_append c' _ _
  by_cases hc : c' = c
  · subst hc
    refine ⟨[bytes], .inl rfl, ?_, ?_⟩
    · rw [hsent]
      simp [sentTo]
    · rw [hlink, if_pos rfl, List.flatten_singleton]
  · refine ⟨[], .inr rfl, ?_, ?_⟩
    · rw [hsent]
      simp [sentTo, Ne.symm hc]
    · rw [hlink, if_neg hc, List.flatten_nil, List.append_nil]

omit [DecidableEq P] in
/-- A message is sent. -/
theorem Sound.deliver (h : Sound r k) {bytes : List UInt8} (hbytes : IsImage bytes)
    (hclient : k.clients[c]? = some p) : Sound r (k.deliver p c bytes) where
  isImage := List.forall_mem_append.mpr ⟨h.isImage, List.forall_mem_singleton.mpr hbytes⟩
  sender := List.forall_mem_append.mpr ⟨h.sender, List.forall_mem_singleton.mpr hclient⟩
  belongs := h.belongs
  increasing := h.increasing
  below := h.below
  unread c' hc' := by
    obtain ⟨new, -, hsent, hlink⟩ := exists_deliver k p c bytes c'
    obtain ⟨hreset, hunread⟩ := h.unread c' hc'
    rw [hsent, hlink, List.flatten_append]
    exact ⟨hreset, congrArg (· ++ new.flatten) hunread⟩

/-- A connection is made. -/
theorem Sound.newLink (h : Sound r k) (fd : ℤ) {waiting : List ℕ} (hwaiting : k.waiting = some waiting) :
    Sound r (k.newLink p fd waiting) where
  isImage := h.isImage
  sender d hd := by
    have hsender := h.sender d hd
    exact (List.getElem?_append_left (List.getElem?_eq_some_iff.mp hsender).1).trans hsender
  belongs q fd' x hx := by
    rcases endpoint_assign hx with hx | ⟨rfl, he⟩
    · exact (h.belongs q fd' x hx).mono (List.prefix_append _ _) (List.Subset.refl _)
    · cases he
      exact List.getElem?_concat_length
  increasing := by
    have hbelow := h.below
    have hincreasing := h.increasing
    rw [hwaiting] at hbelow hincreasing
    change (k.accepted.reverse ++ (waiting ++ [k.clients.length])).Pairwise (· < ·)
    rw [← List.append_assoc]
    -- the new connection has the next number
    refine List.pairwise_append.mpr ⟨hincreasing, List.pairwise_singleton _ _, fun c hc c' hc' => ?_⟩
    rw [List.mem_singleton.mp hc']
    exact hbelow c hc
  below c hc := by
    have hbelow := h.below
    rw [hwaiting] at hbelow
    change c ∈ k.accepted.reverse ++ (waiting ++ [k.clients.length]) at hc
    change c < (k.clients ++ [p]).length
    rw [← List.append_assoc, List.mem_append, List.mem_singleton] at hc
    rw [List.length_append, List.length_singleton]
    rcases hc with hc | rfl
    · exact (hbelow c hc).trans (Nat.lt_succ_self _)
    · exact Nat.lt_succ_self _
  unread := h.unread

omit [DecidableEq P] in
/-- The connection that is accepted next has not been accepted before. -/
theorem Sound.notMem_accepted (h : Sound r k) {waiting : List ℕ}
    (hwaiting : k.waiting = some (c :: waiting)) : c ∉ k.accepted := by
  intro hc
  have hincreasing := h.increasing
  rw [hwaiting] at hincreasing
  exact (lt_irrefl c) ((List.pairwise_append.mp hincreasing).2.2 c (List.mem_reverse.mpr hc) c
    List.mem_cons_self)

/-- A connection is accepted. -/
theorem Sound.acceptLink (h : Sound r k) (fd : ℤ) {waiting : List ℕ}
    (hwaiting : k.waiting = some (c :: waiting)) : Sound r (k.acceptLink r fd c waiting) := by
  have hlist : (c :: k.accepted).reverse ++ waiting = k.accepted.reverse ++ k.waiting.getD [] := by
    rw [hwaiting, List.reverse_cons, List.append_assoc]
    rfl
  refine ⟨h.isImage, h.sender, fun q fd' x hx => ?_, ?_, fun c' hc' => ?_, fun c' hc' => ?_⟩
  · rcases endpoint_assign hx with hx | ⟨rfl, he⟩
    · exact (h.belongs q fd' x hx).mono (List.prefix_refl _) (List.subset_cons_self _ _)
    · cases he
      exact ⟨rfl, List.mem_cons_self⟩
  · change ((c :: k.accepted).reverse ++ waiting).Pairwise (· < ·)
    rw [hlist]
    exact h.increasing
  · change c' ∈ (c :: k.accepted).reverse ++ waiting at hc'
    rw [hlist] at hc'
    exact h.below c' hc'
  · exact h.unread c' fun hmem => hc' (List.mem_cons_of_mem _ hmem)

/-- **A permitted system call keeps the invariant**. -/
theorem Effect.sound (h : k.Effect p call reply k') (hsound : Sound r k) (hperm : Permitted r p call)
    (hharmless : k.Harmless call reply) : Sound r k' := by
  cases h with
  | socket fd => exact hsound.assign fd (by rintro _ ⟨⟩; trivial)
  | listen fd =>
      -- nobody waits for a socket that has just begun to listen
      have hassign := hsound.assign (p := p) fd (e := some .listener) (by rintro _ ⟨⟩; exact hperm)
      refine ⟨hassign.isImage, hassign.sender, hassign.belongs, ?_, ?_, hassign.unread⟩
      · change (k.accepted.reverse ++ []).Pairwise (· < ·)
        rw [List.append_nil]
        exact (List.pairwise_append.mp hsound.increasing).1
      · intro c hc
        change c ∈ k.accepted.reverse ++ [] at hc
        rw [List.append_nil] at hc
        exact hsound.below c (List.mem_append_left _ hc)
  | connect fd waiting hwaiting => exact hsound.newLink fd hwaiting
  | accept fd fd' c waiting hwaiting hfd =>
      have hp : p = r := hsound.belongs p fd _ hfd
      rw [hp]
      exact hsound.acceptLink fd' hwaiting
  | close fd r e => exact (hsound.assign fd (by rintro _ ⟨⟩)).hangUp e
  | send fd bytes n c hfd =>
      obtain rfl : n = bytes.length := hharmless
      rw [List.take_length]
      exact hsound.deliver hperm (hsound.belongs p fd _ hfd)
  | recv fd count bytes c hfd =>
      exact hsound.setLink _ fun hc => absurd (hsound.belongs p fd _ hfd).2 hc
  | reset fd count c hfd => exact hsound.setLink _ fun hc => absurd (hsound.belongs p fd _ hfd).2 hc
  | nothing => exact hsound

/-- Most system calls transfer nothing. -/
theorem Effect.quiet (h : k.Effect p call reply k') (hcall : ¬ call.Transfers) : Quiet k k' := by
  cases h with
  | close fd r e =>
      have hquiet := quiet_hangUp (k.assign p fd none) e
      exact ⟨hquiet.deliveries, hquiet.accepted, hquiet.bytes, hquiet.hungUp, hquiet.reset⟩
  | accept => exact absurd trivial hcall
  | send => exact absurd trivial hcall
  | recv => exact absurd trivial hcall
  | reset => exact absurd trivial hcall
  | _ => exact ⟨rfl, rfl, fun _ => rfl, fun _ h => h, fun _ => rfl⟩

/-- The descriptors of the others are what they were. -/
theorem Effect.endpoint_of_ne (h : k.Effect p call reply k') {q : P} (hq : q ≠ p) :
    k'.endpoint q = k.endpoint q := by
  cases h with
  | close fd r e =>
      refine Eq.trans ?_ (endpoint_assign_of_ne hq fd none)
      cases e <;> rfl
  | socket fd => exact endpoint_assign_of_ne hq _ _
  | listen fd => exact endpoint_assign_of_ne hq _ _
  | connect fd => exact endpoint_assign_of_ne hq _ _
  | accept fd => exact endpoint_assign_of_ne hq _ _
  | _ => rfl

omit [DecidableEq P] in
/-- A connection that has not ended grows by a message, and the others are as they were. -/
theorem grows_deliver (hhungUp : (k.link c).hungUp = false) (p : P) (bytes : List UInt8) (c' : ℕ) :
    Grows c' k (k.deliver p c bytes) := by
  obtain ⟨new, hnew, hsent, hlink⟩ := exists_deliver k p c bytes c'
  refine ⟨⟨new, hsent, ?_, fun hend => hnew.resolve_left fun hc => ?_⟩, ?_, ?_⟩
  · rw [hlink]
  · rw [hc, hhungUp] at hend
    cases hend
  · rw [hlink]
    exact id
  · rw [hlink]

/-- **A system call does no more than the others allow**. -/
theorem Effect.allows (h : k.Effect p call reply k') (hsound : Sound r k) {q : P} (hq : q ≠ p) :
    Allows r q k k' := by
  by_cases hcall : call.Transfers
  · -- only the server accepts and receives, and what is sent can be seen by it
    have hendpoint := h.endpoint_of_ne hq
    cases h with
    | accept fd fd' c waiting hwaiting hfd =>
        have hp : p = r := hsound.belongs p fd _ hfd
        exact ⟨hendpoint, rfl, fun hqr => absurd (hqr.trans hp.symm) hq,
          fun hqr => absurd (hqr.trans hp.symm) hq⟩
    | send fd bytes n c hfd hhungUp =>
        refine ⟨hendpoint, ?_, fun _ => rfl, fun _ => grows_deliver hhungUp p (bytes.take n)⟩
        refine (sentBy_append q k.deliveries [⟨p, c, bytes.take n⟩]).trans ?_
        simp [IpcPerformance.sentBy, Ne.symm hq]
    | recv fd count bytes c hfd =>
        have hp : p = r := (hsound.belongs p fd _ hfd).1
        exact ⟨hendpoint, rfl, fun _ => rfl, fun hqr => absurd (hqr.trans hp.symm) hq⟩
    | reset fd count c hfd =>
        have hp : p = r := (hsound.belongs p fd _ hfd).1
        exact ⟨hendpoint, rfl, fun _ => rfl, fun hqr => absurd (hqr.trans hp.symm) hq⟩
    | nothing => exact .refl r q k
    | _ => exact hcall.elim
  · have hquiet := h.quiet hcall
    refine ⟨h.endpoint_of_ne hq, ?_, fun _ => hquiet.accepted, fun _ => hquiet.grows⟩
    rw [hquiet.deliveries]

end StreamKernel

end IpcPerformance
