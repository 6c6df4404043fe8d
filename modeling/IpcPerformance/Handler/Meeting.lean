import IpcPerformance.Handler.NameSharing

/-! # What reader and writers know

A reader removes what has had the name before it makes its own file, so what it reads has been written
since then; and a writer reaches it exactly if it has opened the name since then.

* `Meeting` — a reader at its file: what it has read, and what is in the file, is what was sent to it.
* `Known` — what a party knows, and the rules for the system calls it makes: `Known.sendProgram`,
  `Known.openProgram`, `Known.closeProgram`.
* `NamedClass.Talking` — what the methods of a class are to do; `Talking.rules` puts them together. -/

namespace IpcPerformance

variable {P α β : Type} [DecidableEq P]

/-! ## What the parties know -/

/-- The messages in a file. -/
abbrev Contents : Type := List (List UInt8) → List (DataHeader × DataObject) → Prop

/-- The bytes of the messages, and then those of what is sent next. -/
structure Contents.Growing (contains : Contents) : Prop where
  append {content : List (List UInt8)} {rest : List (DataHeader × DataObject)}
    (h : contains content rest) (ms : List (DataHeader × DataObject)) :
    contains (content ++ ms.map imageOf) (rest ++ ms)

/-- **The reader at its file**: the name stands for it, and all that was sent to it has been read, or is
in the file. -/
structure Meeting (contains : Contents) (k : Kernel P) (r : P) (fd : ℤ) (file : ℕ)
    (inbox rest : List (DataHeader × DataObject)) : Prop where
  descriptor : k.fileOf r fd = some file
  linked : k.name.linked = some file
  deliveries : sentTo file k.deliveries = (inbox ++ rest).map imageOf
  messages : AllMessages (inbox ++ rest)
  holds : contains (k.content file) rest

/-- What a party knows: it has the file of its descriptor only, it has sent `sent`, and if it is the
reader, and open, it is at its file. -/
structure Known (contains : Contents) (r p : P) (k : Kernel P) (fd : ℤ)
    (sent : List (List UInt8)) (inbox : List (DataHeader × DataObject)) : Prop where
  own {fd' : ℤ} (h : fd' = fd → fd = -1) : k.fileOf p fd' = none
  outbox : sentBy p k.deliveries = sent
  meeting (hp : p = r) (hopen : fd ≠ -1) : ∃ file rest, Meeting contains k r fd file inbox rest

variable {contains : Contents} {r p : P} {k k' : Kernel P} {fd : ℤ} {file : ℕ}
  {sent : List (List UInt8)} {inbox inbox' rest : List (DataHeader × DataObject)}

omit [DecidableEq P] in
/-- What is sent to a file consists of messages. -/
theorem Kernel.Meets.exists_sentTo (h : Kernel.Meets r k) (file : ℕ) (ds : List (Delivery P))
    (hds : ∀ d ∈ ds, d ∈ k.deliveries) :
    ∃ ms, AllMessages ms ∧ sentTo file ds = ms.map imageOf := by
  refine exists_messages fun bytes hbytes => ?_
  obtain ⟨d, hd, rfl⟩ := List.mem_map.mp hbytes
  exact h.isImage d (hds d (List.mem_of_mem_filter hd))

omit [DecidableEq P] in
/-- The file grows while the reader is at it. -/
theorem Meeting.grows (hcontains : contains.Growing) (h : Meeting contains k r fd file inbox rest)
    (hfile : k'.fileOf r = k.fileOf r) (hgrows : Kernel.Grows k k') (hmeets : Kernel.Meets r k') :
    ∃ rest', Meeting contains k' r fd file inbox rest' := by
  obtain ⟨new, hnew, hcontent⟩ := hgrows.sent
  obtain ⟨ms, hms, himages⟩ := hmeets.exists_sentTo file new fun d hd => by
    rw [hnew]
    exact List.mem_append_right _ hd
  refine ⟨rest ++ ms, ?_, hgrows.linked h.linked, ?_, ?_, ?_⟩
  · rw [hfile]
    exact h.descriptor
  · rw [hnew, sentTo_append, h.deliveries, himages, ← List.map_append, List.append_assoc]
  · rw [← List.append_assoc]
    exact List.forall_mem_append.mpr ⟨h.messages, hms⟩
  · rw [hcontent, himages]
    exact hcontains.append h.holds ms

/-- What a party knows remains true. -/
theorem Known.of_allows (hcontains : contains.Growing) (h : Known contains r p k fd sent inbox)
    (hallows : Kernel.Allows r p k k') (hmeets : Kernel.Meets r k') :
    Known contains r p k' fd sent inbox where
  own hfd := by
    rw [hallows.fileOf]
    exact h.own hfd
  outbox := hallows.sentBy.trans h.outbox
  meeting hp hopen := by
    obtain ⟨file, rest, hmeeting⟩ := h.meeting hp hopen
    subst hp
    obtain ⟨rest', hmeeting'⟩ :=
      hmeeting.grows hcontains hallows.fileOf (hallows.grows rfl) hmeets
    exact ⟨file, rest', hmeeting'⟩

/-- A party that is closed knows no more than what it has sent. -/
theorem Known.closed (h : Known contains r p k (-1) sent inbox) (hfile : k'.fileOf p = k.fileOf p)
    (hsent : sentBy p k'.deliveries = sentBy p k.deliveries) :
    Known contains r p k' (-1) sent inbox' where
  own hfd := by
    rw [hfile]
    exact h.own hfd
  outbox := hsent.trans h.outbox
  meeting _ hopen := absurd rfl hopen

/-- Nothing has been read of the file the name stands for. -/
def Unread (k : Kernel P) : Prop :=
  ∀ file, k.name.linked = some file → k.content file = sentTo file k.deliveries

omit [DecidableEq P] in
theorem Unread.grows (h : Unread k) (hgrows : Kernel.Grows k k') : Unread k' := by
  intro file hlinked
  cases hname : k.name.linked with
  | none => exact hgrows.unread hname hlinked
  | some file' =>
      have heq := hgrows.linked hname
      rw [hlinked] at heq
      cases heq
      obtain ⟨new, hnew, hcontent⟩ := hgrows.sent
      rw [hcontent, hnew, sentTo_append, h file hname]

/-! ## Programs -/

/-- A program that is safe for a party that shares a name with the reader `r`. -/
def MeetingSafe (r p : P) (post : α → Kernel P → Prop) (program : KernelProgram α) (k : Kernel P) :
    Prop :=
  program.Safe Kernel.answer Kernel.Harmless (Kernel.Meets r) (Kernel.Allows r) p post k

variable {post : α → Kernel P → Prop} {next : KernelReply → KernelProgram α} {c : KernelCall}

theorem MeetingSafe.ret {a : α} (h : post a k) : MeetingSafe r p post (.ret a) k := h

/-- **The rule for system calls**: they are permitted, and made after what the others have done. -/
theorem MeetingSafe.callHarmless (hperm : Kernel.Permitted r p k c)
    (h : ∀ (k₁ : Kernel P) (reply : KernelReply) (k₂ : Kernel P), Kernel.Allows r p k k₁ →
      Kernel.Meets r k₁ → k₁.Harmless c reply → k₁.Effect p c reply k₂ → Kernel.Meets r k₂ →
      MeetingSafe r p post (next reply) k₂) :
    MeetingSafe r p post (.call c next) k := by
  intro k₁ hallows hmeets reply k₂ hharmless hanswer
  have heffect := Kernel.effect_of_answer hanswer
  have hperm₁ := hperm.of_allows hallows
  have hmeets₂ := heffect.meets hmeets hperm₁
  exact ⟨hmeets₂, fun q hq => heffect.allows hmeets hperm₁ hq,
    h k₁ reply k₂ hallows hmeets hharmless heffect hmeets₂⟩

/-- The rule for those that may fail in any way. -/
theorem MeetingSafe.call (hperm : Kernel.Permitted r p k c)
    (h : ∀ (k₁ : Kernel P) (reply : KernelReply) (k₂ : Kernel P), Kernel.Allows r p k k₁ →
      Kernel.Meets r k₁ → k₁.Effect p c reply k₂ → Kernel.Meets r k₂ →
      MeetingSafe r p post (next reply) k₂) :
    MeetingSafe r p post (.call c next) k :=
  .callHarmless hperm fun k₁ reply k₂ hallows hmeets _ heffect hmeets₂ =>
    h k₁ reply k₂ hallows hmeets heffect hmeets₂

/-- One program after the other. -/
theorem MeetingSafe.bind {post : β → Kernel P → Prop} {program : KernelProgram α}
    {f : α → KernelProgram β}
    (h : MeetingSafe r p (fun a k => MeetingSafe r p post (f a) k) program k) :
    MeetingSafe r p post (program.bind f) k :=
  Program.Safe.bind h

/-- A call to send a message: `send`, or `sendTo`. -/
def Sends (sendCall : List UInt8 → KernelCall) : Prop :=
  ∃ fd, sendCall = .send fd ∨ sendCall = .sendTo fd

/-- **The rule for sending**, for a writer: if it succeeds, the message has been sent. -/
theorem Known.sendProgram (hcontains : contains.Growing) (h : Known contains r p k fd sent inbox)
    (hp : p ≠ r) (isOpen : Bool) (buffer : Memory UInt8) (lastId : UInt32) (o : DataObject)
    (timestamp : Int64) {sendCall : List UInt8 → KernelCall} (hcall : Sends sendCall) :
    MeetingSafe r p
      (fun (accepted, _, id) k => Known contains r p k fd
        (if accepted then sent ++ [imageOf (Channel.message id o timestamp)] else sent) inbox)
      (sendProgram isOpen buffer lastId o timestamp sendCall) k := by
  unfold IpcPerformance.sendProgram
  split
  · rcases assemble_cases buffer lastId o timestamp with
      ⟨hfits, buffer, hassemble, hloaded⟩ | ⟨-, hassemble⟩
    · rw [hassemble]
      have hbytes : buffer.read 0 (DataHeader.headerSize + o.bodySize) =
          imageOf (Channel.message (lastId + 1) o timestamp) := by
        rw [Loaded, length_imageOf] at hloaded
        exact hloaded
      have himage : IsImage (imageOf (Channel.message (lastId + 1) o timestamp)) :=
        ⟨_, ⟨hfits, lastId + 1, timestamp, rfl⟩, rfl⟩
      dsimp only
      rw [hbytes]
      -- what it sends is behind what it has sent before
      have hdeliver (k₁ : Kernel P) (hknown : Known contains r p k₁ fd sent inbox) (file : ℕ)
          (bytes : List UInt8) :
          Known contains r p (k₁.deliver p file bytes) fd (sent ++ [bytes]) inbox := by
        refine ⟨hknown.own, ?_, fun hpr => absurd hpr hp⟩
        change sentBy p (k₁.deliveries ++ [⟨p, file, bytes⟩]) = _
        rw [sentBy_append, hknown.outbox]
        simp [sentBy]
      obtain ⟨fd', rfl | rfl⟩ := hcall
      · refine .call himage fun k₁ reply k₂ hallows hmeets heffect _ => ?_
        have hknown := h.of_allows hcontains hallows hmeets
        cases heffect with
        | send _ _ file hfile => exact .ret (hdeliver k₁ hknown file _)
        | failed c again => exact .ret hknown
      · refine .call himage fun k₁ reply k₂ hallows hmeets heffect _ => ?_
        have hknown := h.of_allows hcontains hallows hmeets
        cases heffect with
        | sendTo _ _ file hname => exact .ret (hdeliver k₁ hknown file _)
        | failed c again => exact .ret hknown
    · rw [hassemble]
      exact .ret h
  · exact .ret h

/-! ## Descriptors and files -/

/-- A new descriptor is the only one. -/
theorem Known.own_acquire (h : Known contains r p k (-1) sent inbox) {fd : ℤ} (file : Option ℕ) {fd' : ℤ}
    (hfd : fd' = fd → fd = -1) (hopen : fd ≠ -1) :
    Function.update k.fileOf p (Function.update (k.fileOf p) fd file) p fd' = none := by
  rw [Function.update_self, Function.update_of_ne fun heq => hopen (hfd heq)]
  exact h.own fun _ => rfl

/-- A writer has opened something. -/
theorem Known.acquire_writer (h : Known contains r p k (-1) sent inbox) (hp : p ≠ r) {fd : ℤ}
    (hopen : fd ≠ -1) {file : Option ℕ}
    (hfile : k'.fileOf = Function.update k.fileOf p (Function.update (k.fileOf p) fd file))
    (hdeliveries : k'.deliveries = k.deliveries) : Known contains r p k' fd sent inbox' where
  own hfd := by
    rw [hfile]
    exact h.own_acquire file hfd hopen
  outbox := by
    rw [hdeliveries]
    exact h.outbox
  meeting hpr := absurd hpr hp

/-- **The reader has opened the file the name stands for**: nobody has read it before. -/
theorem Known.acquire_reader (hcontains : contains.Growing) (hnil : contains [] [])
    (h : Known contains r r k (-1) sent inbox) {fd : ℤ} (hopen : fd ≠ -1)
    (hfile : k'.fileOf = Function.update k.fileOf r (Function.update (k.fileOf r) fd (some file)))
    (hdeliveries : k'.deliveries = k.deliveries) (hname : k'.name.linked = some file)
    (hmeets : Kernel.Meets r k') (hunread : Unread k') : Known contains r r k' fd sent [] where
  own hfd := by
    rw [hfile]
    exact h.own_acquire (some file) hfd hopen
  outbox := by
    rw [hdeliveries]
    exact h.outbox
  meeting _ _ := by
    obtain ⟨ms, hms, himages⟩ := hmeets.exists_sentTo file _ fun d hd => hd
    refine ⟨file, ms, ?_, hname, himages, hms, ?_⟩
    · rw [hfile, Function.update_self, Function.update_self]
    · rw [hunread file hname, himages]
      exact hcontains.append hnil ms

/-- A descriptor is given up. -/
theorem Known.release (h : Known contains r p k fd sent inbox) {fd' : ℤ} (hfd : fd = fd' ∨ fd = -1)
    (hfile : k'.fileOf = Function.update k.fileOf p (Function.update (k.fileOf p) fd' none))
    (hdeliveries : k'.deliveries = k.deliveries) : Known contains r p k' (-1) sent inbox' where
  own := by
    intro fd'' _
    rw [hfile, Function.update_self]
    by_cases heq : fd'' = fd'
    · rw [heq, Function.update_self]
    · rw [Function.update_of_ne heq]
      refine h.own fun heq' => hfd.resolve_left ?_
      rw [← heq']
      exact heq
  outbox := by
    rw [hdeliveries]
    exact h.outbox
  meeting _ hopen := absurd rfl hopen

omit [DecidableEq P] in
/-- What has just been created has not been read. -/
theorem Unread.create (h : Unread k) (hmeets : Kernel.Meets r k) :
    Unread { k with name := (k.name.create []).2 } := by
  cases hname : k.name.linked with
  | none => exact h.grows (hmeets.grows_create hname)
  | some file =>
      rw [Entry.create_of_some hname]
      exact h

omit [DecidableEq P] in
/-- Bytes are taken out of the file of the reader. -/
theorem Meeting.take {contains' : Contents} {inbox' rest' : List (DataHeader × DataObject)}
    (h : Meeting contains k r fd file inbox rest) (hall : inbox' ++ rest' = inbox ++ rest)
    {content : List (List UInt8)} (hcontent : contains' content rest') :
    Meeting contains' { k with name := k.name.set file content } r fd file inbox' rest' where
  descriptor := h.descriptor
  linked := h.linked
  deliveries := by
    rw [hall]
    exact h.deliveries
  messages := by
    rw [hall]
    exact h.messages
  holds := by
    change contains' (Function.update k.name.object file content file) rest'
    rw [Function.update_self]
    exact hcontent

/-! ## Opening and closing -/

/-- A call that opens the name, for the reader after the name has been removed. -/
theorem Known.opensName (hcontains : contains.Growing) (hnil : contains [] [])
    (hknown : Known contains r p k (-1) sent inbox) (hmeets : Kernel.Meets r k)
    (hunread : p = r → Unread k) (hc : c = .openFile ∨ c = .openQueue) {reply : KernelReply}
    (heffect : k.Effect p c reply k') (hmeets' : Kernel.Meets r k') :
    Known contains r p k' reply.status sent [] := by
  cases heffect with
  | openFile fd file hname =>
      have hfd : (fd : ℤ) ≠ -1 := by omega
      by_cases hp : p = r
      · subst hp
        exact hknown.acquire_reader hcontains hnil hfd rfl rfl hname hmeets' (hunread rfl)
      · exact hknown.acquire_writer hp hfd rfl rfl
  | openQueue fd =>
      have hfd : (fd : ℤ) ≠ -1 := by omega
      by_cases hp : p = r
      · subst hp
        exact hknown.acquire_reader hcontains hnil hfd rfl rfl (Entry.linked_create k.name [])
          hmeets' ((hunread rfl).create hmeets)
      · exact hknown.acquire_writer hp hfd rfl rfl
  | failed c again => exact hknown.closed rfl rfl
  | _ => rcases hc with hc | hc <;> cases hc

/-- A party that is closed may remove the name, or fail to do so. -/
theorem Known.unlinked (h : Known contains r p k (-1) sent inbox) {queue : Bool} {reply : KernelReply}
    (heffect : k.Effect p (.unlink queue) reply k') : Known contains r p k' (-1) sent inbox' := by
  cases heffect with
  | unlink queue reply => exact h.closed rfl rfl
  | unlinkFails queue again hname => exact h.closed rfl rfl
  | failed c again hunlink => exact absurd rfl (hunlink queue)

/-- The second half of `Fifo::open` and of `MessageQueue::open`: if the name cannot be opened, a reader
removes it again. -/
theorem Known.openProgram {H : Type} (handler : ℤ → H) (descriptor : H → ℤ)
    (hset : ∀ fd, descriptor (handler fd) = fd) (queue : Bool) (hcontains : contains.Growing)
    (hnil : contains [] []) (hknown : Known contains r p k (-1) sent inbox)
    (hunread : p = r → Unread k) (hc : c = .openFile ∨ c = .openQueue) :
    MeetingSafe r p (fun (res : Bool × H) k => Known contains r p k (descriptor res.2) sent [])
      (.call c fun res =>
        if descriptor (handler res.status) = -1 then
          if decide (p = r) = true then .call (.unlink queue) fun _ => .ret (false, handler res.status)
          else .ret (false, handler res.status)
        else .ret (true, handler res.status)) k := by
  have hnone : ∀ fd, k.fileOf p fd = none := fun _ => hknown.own fun _ => rfl
  have hperm : Kernel.Permitted r p k c := by
    rcases hc with rfl | rfl <;> exact hnone
  refine .call hperm fun k₁ reply k₂ hallows hmeets heffect hmeets₂ => ?_
  have hopened := (hknown.of_allows hcontains hallows hmeets).opensName hcontains hnil hmeets
    (fun hp => (hunread hp).grows (hallows.grows hp)) hc heffect hmeets₂
  rw [hset]
  by_cases hfails : reply.status = -1
  · rw [if_pos hfails]
    by_cases hp : p = r
    · rw [if_pos (decide_eq_true hp)]
      refine .call hp fun k₃ reply' k₄ hallows' hmeets' heffect' _ => ?_
      rw [hfails] at hopened
      have hknown₃ := hopened.of_allows hcontains hallows' hmeets'
      refine .ret ?_
      rw [hset, hfails]
      exact hknown₃.unlinked heffect'
    · rw [if_neg (by simp [hp])]
      refine .ret ?_
      rwa [hset]
  · rw [if_neg hfails]
    refine .ret ?_
    rwa [hset]

/-- What a call of `read` may return. -/
def SoundOutcome (outcome : Except Fault ReadResult) : Prop :=
  (∃ m, outcome = .ok (.ok m)) ∨ outcome = .ok (.error .noDataAvailable) ∨
    outcome = .ok (.error .readError) ∨ outcome = .ok (.error .connectionClosed)

/-- **What the methods of a class do**, for the reader and for writers. -/
structure NamedClass.Talking (c : NamedClass) (contains : Contents) : Prop where
  growing : contains.Growing
  openHandler {P : Type} [DecidableEq P] {r p : P} {k : Kernel P} (h : c.Handler)
    {sent : List (List UInt8)} {inbox : List (DataHeader × DataObject)}
    (hknown : Known contains r p k (c.descriptor h) sent inbox) :
    MeetingSafe r p
      (fun res k => Known contains r p k (c.descriptor res.2) sent
        (if c.descriptor h = -1 then [] else inbox))
      (c.openHandler (decide (p = r)) h) k
  closeHandler {P : Type} [DecidableEq P] {r p : P} {k : Kernel P} (h : c.Handler)
    {sent : List (List UInt8)} {inbox : List (DataHeader × DataObject)}
    (hknown : Known contains r p k (c.descriptor h) sent inbox) :
    MeetingSafe r p (fun res k => Known contains r p k (c.descriptor res.2) sent inbox)
      (c.closeHandler (decide (p = r)) h) k
  write {P : Type} [DecidableEq P] {r p : P} {k : Kernel P} (h : c.Handler)
    {sent : List (List UInt8)} {inbox : List (DataHeader × DataObject)} (hp : p ≠ r)
    (hknown : Known contains r p k (c.descriptor h) sent inbox) (o : DataObject) (timestamp : Int64) :
    MeetingSafe r p
      (fun res k => Known contains r p k (c.descriptor res.2)
        (if res.1 then sent ++ [imageOf (Channel.message (c.lastId res.2) o timestamp)] else sent) inbox)
      (c.write h o timestamp) k
  read {P : Type} [DecidableEq P] {r : P} {k : Kernel P} (h : c.Handler)
    {sent : List (List UInt8)} {inbox : List (DataHeader × DataObject)}
    (hknown : Known contains r r k (c.descriptor h) sent inbox) :
    MeetingSafe r r
      (fun res k => SoundOutcome res.1 ∧
        Known contains r r k (c.descriptor res.2) sent (inbox ++ messageOf res.1))
      (c.read h) k

/-- A handler that is closed says so. -/
theorem Known.readClosed (hknown : Known contains r r k fd sent inbox) (hclosed : fd = -1) :
    SoundOutcome (.ok (.error .connectionClosed)) ∧ Known contains r r k fd sent
      (inbox ++ NamedClass.messageOf (.ok (.error .connectionClosed))) := by
  subst hclosed
  exact ⟨.inr (.inr (.inr rfl)), hknown.closed rfl rfl⟩

namespace NamedClass

variable {c : NamedClass}

/-- Only the reader reads, and the others write. -/
def Proper (r : P) : NamedJob → P → Prop
  | .read, p => p = r
  | .write _ _, p => p ≠ r
  | _, _ => True

/-- The last call of `read` has not ended in another way. -/
def Party.Sound (l : c.Party) : Prop :=
  ∀ outcome, l.last = some (.read outcome) → SoundOutcome outcome

/-- What a party knows between two methods. -/
def Between (contains : Contents) (r p : P) (l : c.Party) (k : Kernel P) : Prop :=
  Known contains r p k (c.descriptor l.handler) (l.outbox.map imageOf) l.inbox ∧ l.Sound

/-- Every method leaves a party with what it has sent and read. -/
theorem Talking.method (hc : c.Talking contains) (l : c.Party) {j : NamedJob} (hproper : Proper r j p)
    (h : Between contains r p l k) :
    MeetingSafe r p (Between contains r p) (c.method (decide (p = r)) l j) k := by
  obtain ⟨hknown, -⟩ := h
  cases j with
  | openHandler =>
      refine .bind ((hc.openHandler l.handler hknown).mono ?_)
      exact fun _ _ hopened => .ret ⟨hopened, nofun⟩
  | closeHandler =>
      refine .bind ((hc.closeHandler l.handler hknown).mono ?_)
      exact fun _ _ hclosed => .ret ⟨hclosed, nofun⟩
  | destroy =>
      refine .bind ?_
      unfold NamedClass.destroy
      split
      · refine .bind ((hc.closeHandler l.handler hknown).mono ?_)
        exact fun _ _ hclosed => .ret (.ret ⟨hclosed, nofun⟩)
      · exact .ret (.ret ⟨hknown, nofun⟩)
  | write o timestamp =>
      refine .bind ((hc.write l.handler hproper hknown o timestamp).mono ?_)
      rintro ⟨accepted, handler⟩ k' hsent
      refine .ret ⟨?_, nofun⟩
      cases accepted with
      | true =>
          simp only [if_true, List.map_append, List.map_singleton] at hsent ⊢
          exact hsent
      | false => exact hsent
  | read =>
      cases hproper
      refine .bind ((hc.read l.handler hknown).mono ?_)
      rintro ⟨outcome, handler⟩ k' ⟨hsound, hread⟩
      refine .ret ⟨hread, fun outcome' hlast => ?_⟩
      cases hlast
      exact hsound

/-- The parties keep to what they allow each other. -/
def Talking.rules (hc : c.Talking contains) (r : P) : (c.system fun p => decide (p = r)).Rules where
  inv := Kernel.Meets r
  rely := Kernel.Allows r
  idle := Between contains r
  allowed p j := Proper r j p
  granted := Kernel.Harmless
  rely_refl := Kernel.Allows.refl r
  rely_trans _ _ _ _ h h' := h.trans h'
  idle_stable _ _ _ _ h hrely hinv := ⟨h.1.of_allows hc.growing hrely hinv, h.2⟩
  method_safe _ l _ _ hproper h _ := hc.method l hproper h

end NamedClass

end IpcPerformance
