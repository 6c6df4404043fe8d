import IpcPerformance.Handler.NamedHandlers

/-! # Sharing a name

One of the handlers with a name is for reading, the others are for writing. What the kernel does for one
of them is seen by the others as far as they share the name and its files.

* `Kernel.Meets` — the invariant of the kernel: descriptors, files and deliveries belong together.
* `Kernel.Allows` — what the parties allow each other to do.
* `Kernel.Effect.meets`, `Kernel.Effect.allows` — permitted system calls keep to both. -/

namespace IpcPerformance

variable {P : Type}

/-! ## What has been sent -/

/-- The bytes that have been sent to a file. -/
def sentTo (file : ℕ) (deliveries : List (Delivery P)) : List (List UInt8) :=
  (deliveries.filter fun d => d.file = file).map Delivery.bytes

/-- The bytes a handler has sent. -/
def sentBy [DecidableEq P] (p : P) (deliveries : List (Delivery P)) : List (List UInt8) :=
  (deliveries.filter fun d => d.sender = p).map Delivery.bytes

theorem sentTo_append (file : ℕ) (ds ds' : List (Delivery P)) :
    sentTo file (ds ++ ds') = sentTo file ds ++ sentTo file ds' := by
  rw [sentTo, List.filter_append, List.map_append]
  rfl

theorem sentBy_append [DecidableEq P] (p : P) (ds ds' : List (Delivery P)) :
    sentBy p (ds ++ ds') = sentBy p ds ++ sentBy p ds' := by
  rw [sentBy, List.filter_append, List.map_append]
  rfl

/-- Nothing has been sent to a file that is not among those of the deliveries. -/
theorem sentTo_eq_nil {file : ℕ} {deliveries : List (Delivery P)}
    (h : ∀ d ∈ deliveries, d.file ≠ file) : sentTo file deliveries = [] := by
  rw [sentTo, List.map_eq_nil_iff, List.filter_eq_nil_iff]
  intro d hd
  rw [decide_eq_true_eq]
  exact h d hd

/-- The bytes of a message. -/
def IsImage (bytes : List UInt8) : Prop := ∃ m, IsMessage m ∧ bytes = imageOf m

/-- Bytes that are all those of messages. -/
theorem exists_messages {images : List (List UInt8)} (h : ∀ bytes ∈ images, IsImage bytes) :
    ∃ ms, AllMessages ms ∧ images = ms.map imageOf := by
  induction images with
  | nil => exact ⟨[], allMessages_nil, rfl⟩
  | cons bytes images ih =>
      rw [List.forall_mem_cons] at h
      obtain ⟨⟨m, hm, rfl⟩, hrest⟩ := h
      obtain ⟨ms, hms, rfl⟩ := ih hrest
      exact ⟨m :: ms, List.forall_mem_cons.mpr ⟨hm, hms⟩, rfl⟩

/-! ## The kernel -/

namespace Kernel

/-- **The invariant of the kernel**, for the reader `r`. -/
structure Meets (r : P) (k : Kernel P) : Prop where
  /-- The name stands for a file that has been created. -/
  linked_lt {file : ℕ} (h : k.name.linked = some file) : file < k.name.created
  /-- So does a descriptor. -/
  fileOf_lt {p : P} {fd : ℤ} {file : ℕ} (h : k.fileOf p fd = some file) : file < k.name.created
  /-- And so do the deliveries. -/
  delivered_lt (d : Delivery P) (h : d ∈ k.deliveries) : d.file < k.name.created
  /-- A file that has not been created is empty. -/
  content_nil {file : ℕ} (h : k.name.created ≤ file) : k.content file = []
  /-- Only messages are sent. -/
  isImage (d : Delivery P) (h : d ∈ k.deliveries) : IsImage d.bytes
  /-- **A writer is at the file the name stands for if it has opened it since the name was removed.** -/
  recent_iff {p : P} (hp : p ≠ r) {fd : ℤ} {file : ℕ} (h : k.fileOf p fd = some file) :
    k.recent p = true ↔ k.name.linked = some file
  /-- The name was removed at some time. -/
  cleared_le : k.cleared ≤ k.deliveries.length
  /-- To the file it stands for, nothing had been sent then. -/
  cleared_ne {file : ℕ} (h : k.name.linked = some file) (d : Delivery P)
    (hd : d ∈ k.deliveries.take k.cleared) : d.file ≠ file

/-- What the reader allows the writers to do: they may put something into files, and make a file when
the name does not stand for one. -/
structure Grows (k k' : Kernel P) : Prop where
  /-- The name keeps its file. -/
  linked {file : ℕ} (h : k.name.linked = some file) : k'.name.linked = some file
  /-- What is sent is in the files. -/
  sent : ∃ new, k'.deliveries = k.deliveries ++ new ∧
    ∀ file, k'.content file = k.content file ++ sentTo file new
  /-- Nobody has read a file of the name that is new. -/
  unread (hnone : k.name.linked = none) {file : ℕ} (h : k'.name.linked = some file) :
    k'.content file = sentTo file k'.deliveries

/-- What a party allows the others to do, for the reader `r`. -/
structure Allows [DecidableEq P] (r p : P) (k k' : Kernel P) : Prop where
  /-- Descriptors are private. -/
  fileOf : k'.fileOf p = k.fileOf p
  /-- So is what has been sent. -/
  sentBy : sentBy p k'.deliveries = sentBy p k.deliveries
  /-- Only the reader reads, and only it removes names. -/
  grows (h : p = r) : Grows k k'

/-- The system calls a party may make: the writers leave the name alone, and send messages. -/
def Permitted (r p : P) (k : Kernel P) : KernelCall → Prop
  | .openFile | .openQueue | .socket => ∀ fd, k.fileOf p fd = none
  | .send _ bytes | .sendTo _ bytes => IsImage bytes
  | .close _ => True
  | .unlink _ | .makeFifo | .bind _ | .readBytes _ _ | .receive _ => p = r

variable {r p : P} {k k' k'' : Kernel P} {c : KernelCall} {reply : KernelReply}

theorem Grows.refl (k : Kernel P) : Grows k k where
  linked h := h
  sent := ⟨[], (List.append_nil _).symm, fun _ => (List.append_nil _).symm⟩
  unread hnone file h := by
    rw [hnone] at h
    cases h

theorem Grows.trans (h : Grows k k') (h' : Grows k' k'') : Grows k k'' := by
  obtain ⟨new, hnew, hcontent⟩ := h.sent
  obtain ⟨new', hnew', hcontent'⟩ := h'.sent
  refine ⟨fun hlinked => h'.linked (h.linked hlinked), ⟨new ++ new', ?_, fun file => ?_⟩, ?_⟩
  · rw [hnew', hnew, List.append_assoc]
  · rw [hcontent', hcontent, sentTo_append, List.append_assoc]
  · intro hnone file hlinked
    cases hmid : k'.name.linked with
    | none => exact h'.unread hmid hlinked
    | some file' =>
        -- the file has been made in the first step
        have heq := h'.linked hmid
        rw [hlinked] at heq
        cases heq
        rw [hcontent', hnew', sentTo_append, h.unread hnone hmid]

/-! ## What a system call preserves -/

/-- A file that has just been created is the only one of the name. -/
theorem Meets.create (h : Meets r k) (hname : k.name.linked = none) :
    Meets r { k with name := (k.name.create []).2 } := by
  rw [Entry.create_of_none hname]
  exact {
    linked_lt := by
      intro file hlinked
      cases hlinked
      exact Nat.lt_succ_self _
    fileOf_lt := fun hfile => (h.fileOf_lt hfile).trans (Nat.lt_succ_self _)
    delivered_lt := fun d hd => (h.delivered_lt d hd).trans (Nat.lt_succ_self _)
    content_nil := by
      intro file hfile
      have hne : file ≠ k.name.created := (show k.name.created < file from hfile).ne'
      exact (Function.update_of_ne hne _ _).trans (h.content_nil (Nat.le_of_succ_le hfile))
    isImage := h.isImage
    recent_iff := by
      intro p hp fd file hfile
      rw [h.recent_iff hp hfile, hname]
      -- the descriptors are of older files
      have hlt := h.fileOf_lt hfile
      constructor
      · intro hnone
        cases hnone
      · intro hlinked
        cases hlinked
        exact absurd hlt (lt_irrefl _)
    cleared_le := h.cleared_le
    cleared_ne := by
      intro file hlinked d hd
      cases hlinked
      exact (h.delivered_lt d (List.mem_of_mem_take hd)).ne }

/-- The name is removed: nobody has opened it since. -/
theorem Meets.remove (h : Meets r k) : Meets r k.remove where
  linked_lt hlinked := by cases hlinked
  fileOf_lt := h.fileOf_lt
  delivered_lt := h.delivered_lt
  content_nil := h.content_nil
  isImage := h.isImage
  recent_iff _ _ _ _ := ⟨fun hrecent => Bool.noConfusion hrecent, fun hlinked => by cases hlinked⟩
  cleared_le := le_rfl
  cleared_ne hlinked := by cases hlinked

/-- Bytes are taken out of a file. -/
theorem Meets.setContent (h : Meets r k) {file : ℕ} (hfile : file < k.name.created)
    (content : List (List UInt8)) : Meets r { k with name := k.name.set file content } where
  linked_lt := h.linked_lt
  fileOf_lt := h.fileOf_lt
  delivered_lt := h.delivered_lt
  content_nil hle :=
    (Function.update_of_ne (hfile.trans_le hle).ne' _ _).trans (h.content_nil hle)
  isImage := h.isImage
  recent_iff := h.recent_iff
  cleared_le := h.cleared_le
  cleared_ne := h.cleared_ne

/-- Bytes of a message are put into a file. -/
theorem Meets.deliver (h : Meets r k) {file : ℕ} (hfile : file < k.name.created)
    {bytes : List UInt8} (hbytes : IsImage bytes) : Meets r (k.deliver p file bytes) where
  linked_lt := h.linked_lt
  fileOf_lt := h.fileOf_lt
  delivered_lt d hd := by
    rcases List.mem_append.mp hd with hd | hd
    · exact h.delivered_lt d hd
    · rw [List.mem_singleton.mp hd]
      exact hfile
  content_nil hle :=
    (Function.update_of_ne (hfile.trans_le hle).ne' _ _).trans (h.content_nil hle)
  isImage d hd := by
    rcases List.mem_append.mp hd with hd | hd
    · exact h.isImage d hd
    · rw [List.mem_singleton.mp hd]
      exact hbytes
  recent_iff := h.recent_iff
  cleared_le := h.cleared_le.trans (by
    change _ ≤ (k.deliveries ++ _).length
    rw [List.length_append]
    exact Nat.le_add_right _ _)
  cleared_ne hlinked d hd := by
    change d ∈ (k.deliveries ++ _).take k.cleared at hd
    rw [List.take_append_of_le_length h.cleared_le] at hd
    exact h.cleared_ne hlinked d hd

/-- With the same name and the same deliveries, nothing has changed. -/
theorem Grows.of_eq (hname : k'.name = k.name) (hdeliveries : k'.deliveries = k.deliveries) :
    Grows k k' := by
  refine ⟨fun h => hname ▸ h, ⟨[], ?_, fun file => ?_⟩, ?_⟩
  · rw [hdeliveries, List.append_nil]
  · rw [content, hname]
    exact (List.append_nil _).symm
  · intro hnone file h
    rw [hname, hnone] at h
    cases h

/-- Nothing has been sent to a file that is created. -/
theorem Meets.grows_create (h : Meets r k) (hname : k.name.linked = none) :
    Grows k { k with name := (k.name.create []).2 } := by
  rw [Entry.create_of_none hname]
  refine ⟨fun hlinked => ?_, ⟨[], (List.append_nil _).symm, fun file => ?_⟩, ?_⟩
  · rw [hname] at hlinked
    cases hlinked
  · change Function.update k.name.object k.name.created [] file = k.content file ++ []
    rw [List.append_nil]
    by_cases hfile : file = k.name.created
    · subst hfile
      rw [Function.update_self, h.content_nil le_rfl]
    · rw [Function.update_of_ne hfile]
      rfl
  · rintro - file hlinked
    cases hlinked
    rw [sentTo_eq_nil fun d hd => (h.delivered_lt d hd).ne]
    exact Function.update_self _ _ _

/-- What is sent is put behind what is there. -/
theorem grows_deliver {file : ℕ} (bytes : List UInt8) :
    Grows k (k.deliver p file bytes) := by
  refine ⟨id, ⟨[⟨p, file, bytes⟩], rfl, fun file' => ?_⟩, ?_⟩
  · change Function.update k.name.object file (k.content file ++ [bytes]) file' = _
    by_cases hfile : file' = file
    · subst hfile
      rw [Function.update_self]
      simp [sentTo]
    · rw [Function.update_of_ne hfile]
      simp [sentTo, Ne.symm hfile, content]
  · intro hnone file' h
    change k.name.linked = _ at h
    rw [hnone] at h
    cases h

variable [DecidableEq P]

/-- The descriptor of a party, when it has no other one. -/
theorem fileOf_update {fd : ℤ} {file : Option ℕ} {q : P} {fd' : ℤ} {file' : ℕ}
    (h : Function.update k.fileOf p (Function.update (k.fileOf p) fd file) q fd' = some file') :
    (q = p ∧ fd' = fd ∧ file = some file') ∨ k.fileOf q fd' = some file' := by
  by_cases hq : q = p
  · subst hq
    rw [Function.update_self] at h
    by_cases hfd : fd' = fd
    · subst hfd
      rw [Function.update_self] at h
      exact .inl ⟨rfl, rfl, h⟩
    · rw [Function.update_of_ne hfd] at h
      exact .inr h
  · rw [Function.update_of_ne hq] at h
    exact .inr h

/-- A descriptor of the file the name stands for. -/
theorem Meets.acquireName (h : Meets r k) (hnone : ∀ fd, k.fileOf p fd = none) (fd : ℕ) {file : ℕ}
    (hname : k.name.linked = some file) : Meets r (k.acquireName p fd file) where
  linked_lt := h.linked_lt
  fileOf_lt hfile := by
    obtain ⟨-, -, hfile⟩ | hfile := fileOf_update hfile
    · cases hfile
      exact h.linked_lt hname
    · exact h.fileOf_lt hfile
  delivered_lt := h.delivered_lt
  content_nil := h.content_nil
  isImage := h.isImage
  recent_iff := by
    intro q hq fd' file' hfile
    change Function.update k.recent p true q = true ↔ _
    obtain ⟨rfl, -, hnew⟩ | hold := fileOf_update hfile
    · cases hnew
      rw [Function.update_self]
      exact iff_of_true rfl hname
    · have hqp : q ≠ p := by
        rintro rfl
        rw [hnone] at hold
        cases hold
      rw [Function.update_of_ne hqp]
      exact h.recent_iff hq hold
  cleared_le := h.cleared_le
  cleared_ne := h.cleared_ne

/-- Descriptors of writers that are given up, or stand for no file. -/
theorem Meets.forget (h : Meets r k) (fd : ℤ) (log : P → List (LedgerEvent ℤ)) :
    Meets r { k with
      fileOf := Function.update k.fileOf p (Function.update (k.fileOf p) fd none)
      log } where
  linked_lt := h.linked_lt
  fileOf_lt hfile := by
    obtain ⟨-, -, hfile⟩ | hfile := fileOf_update hfile
    · cases hfile
    · exact h.fileOf_lt hfile
  delivered_lt := h.delivered_lt
  content_nil := h.content_nil
  isImage := h.isImage
  recent_iff hq _ _ hfile := by
    obtain ⟨-, -, hfile⟩ | hfile := fileOf_update hfile
    · cases hfile
    · exact h.recent_iff hq hfile
  cleared_le := h.cleared_le
  cleared_ne := h.cleared_ne

/-- The reader binds its socket to the file the name stands for. -/
theorem Meets.bind (h : Meets r k) (fd : ℤ) {file : ℕ} (hname : k.name.linked = some file)
    (receiver : Option (P × ℤ)) :
    Meets r { k with
      fileOf := Function.update k.fileOf r (Function.update (k.fileOf r) fd (some file))
      receiver } where
  linked_lt := h.linked_lt
  fileOf_lt hfile := by
    obtain ⟨-, -, hfile⟩ | hfile := fileOf_update hfile
    · cases hfile
      exact h.linked_lt hname
    · exact h.fileOf_lt hfile
  delivered_lt := h.delivered_lt
  content_nil := h.content_nil
  isImage := h.isImage
  recent_iff hq _ _ hfile := by
    obtain ⟨rfl, -, -⟩ | hfile := fileOf_update hfile
    · exact absurd rfl hq
    · exact h.recent_iff hq hfile
  cleared_le := h.cleared_le
  cleared_ne := h.cleared_ne

/-- **Every permitted call keeps the invariant.** -/
theorem Effect.meets (heffect : Effect p k c reply k') (h : Meets r k) (hperm : Permitted r p k c) :
    Meets r k' := by
  cases heffect with
  | unlink queue reply => exact h.remove
  | makeFifo hname => exact h.create hname
  | openFile fd file hname => exact h.acquireName hperm fd hname
  | openQueue fd =>
      cases hname : k.name.linked with
      | none =>
          have hlinked := Entry.linked_create k.name []
          exact (h.create hname).acquireName hperm fd hlinked
      | some file =>
          rw [Entry.create_of_some hname]
          exact h.acquireName hperm fd hname
  | socket fd => exact h.forget fd _
  | bind fd hname =>
      cases hperm
      exact (h.create hname).bind fd (Entry.linked_create k.name []) _
  | close fd => exact h.forget fd _
  | send fd bytes file hfile => exact h.deliver (h.fileOf_lt hfile) hperm
  | sendTo fd bytes file hname => exact h.deliver (h.linked_lt hname) hperm
  | readBytes fd count file hfile => exact h.setContent (h.fileOf_lt hfile) _
  | receive fd file message rest hfile => exact h.setContent (h.fileOf_lt hfile) _
  | _ => exact h

/-! ## What the others see of it -/

theorem Allows.refl (r p : P) (k : Kernel P) : Allows r p k k := ⟨rfl, rfl, fun _ => .refl k⟩

theorem Allows.trans (h : Allows r p k k') (h' : Allows r p k' k'') : Allows r p k k'' :=
  ⟨h'.fileOf.trans h.fileOf, h'.sentBy.trans h.sentBy, fun hp => (h.grows hp).trans (h'.grows hp)⟩

/-- What a party may do depends on its descriptors only. -/
theorem Permitted.of_allows (h : Permitted r p k c) (hallows : Allows r p k k') :
    Permitted r p k' c := by
  cases c with
  | openFile => exact fun fd => by rw [hallows.fileOf]; exact h fd
  | openQueue => exact fun fd => by rw [hallows.fileOf]; exact h fd
  | socket => exact fun fd => by rw [hallows.fileOf]; exact h fd
  | _ => exact h

/-- The system calls that neither remove the name nor take anything out of a file. -/
def Shares : KernelCall → Prop
  | .openFile | .openQueue | .socket | .close _ | .send _ _ | .sendTo _ _ => True
  | _ => False

/-- **Sharing a name**: such calls only let the files grow. -/
theorem Effect.grows (heffect : Effect p k c reply k') (h : Meets r k) (hc : Shares c) :
    Grows k k' := by
  cases heffect with
  | openFile fd file hname => exact .of_eq rfl rfl
  | openQueue fd =>
      cases hname : k.name.linked with
      | none => exact (h.grows_create hname).trans (.of_eq rfl rfl)
      | some file =>
          rw [Entry.create_of_some hname]
          exact .of_eq rfl rfl
  | socket fd => exact .of_eq rfl rfl
  | close fd => exact .of_eq rfl rfl
  | send fd bytes file hfile => exact grows_deliver bytes
  | sendTo fd bytes file hname => exact grows_deliver bytes
  | failed c again => exact .refl k
  | _ => exact hc.elim

/-- Nobody else's descriptors change. -/
theorem Effect.fileOf_of_ne (heffect : Effect p k c reply k') {q : P} (hq : q ≠ p) :
    k'.fileOf q = k.fileOf q := by
  cases heffect with
  | openFile fd file hname => exact Function.update_of_ne hq _ _
  | openQueue fd => exact Function.update_of_ne hq _ _
  | socket fd => exact Function.update_of_ne hq _ _
  | bind fd hname => exact Function.update_of_ne hq _ _
  | close fd => exact Function.update_of_ne hq _ _
  | _ => rfl

/-- Nobody else has sent anything. -/
theorem Effect.sentBy_of_ne (heffect : Effect p k c reply k') {q : P} (hq : q ≠ p) :
    sentBy q k'.deliveries = sentBy q k.deliveries := by
  have hdeliver (file : ℕ) (bytes : List UInt8) :
      sentBy q (k.deliveries ++ [⟨p, file, bytes⟩]) = sentBy q k.deliveries := by
    rw [sentBy_append, sentBy, sentBy]
    simp [Ne.symm hq]
  cases heffect with
  | send fd bytes file hfile => exact hdeliver file bytes
  | sendTo fd bytes file hname => exact hdeliver file bytes
  | _ => rfl

/-- **Every permitted call is allowed by the others.** -/
theorem Effect.allows (heffect : Effect p k c reply k') (h : Meets r k) (hperm : Permitted r p k c)
    {q : P} (hq : q ≠ p) : Allows r q k k' where
  fileOf := heffect.fileOf_of_ne hq
  sentBy := heffect.sentBy_of_ne hq
  grows hqr := by
    refine heffect.grows h ?_
    -- a writer that does anything else would be the reader
    have hpr : p ≠ r := by
      rintro rfl
      exact hq hqr
    cases c with
    | openFile => trivial
    | openQueue => trivial
    | socket => trivial
    | close fd => trivial
    | send fd bytes => trivial
    | sendTo fd bytes => trivial
    | _ => exact absurd hperm hpr

end Kernel

end IpcPerformance
