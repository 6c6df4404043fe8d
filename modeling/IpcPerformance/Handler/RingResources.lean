import IpcPerformance.Handler.RingNames
import IpcPerformance.Library.Ledger

/-! # The resources of the ring handlers

`open` and `close` of `src/handler/shared_memory.cpp` and `shared_file.cpp`, with every system call that
acquires or releases something. `open` calls `close` when something fails, and `close` releases
everything there is a field for, whether `open` has got that far or not.

* `RingKind.step_cases` — what a call does to the resources.
* `RingKind.disciplined_iff` — resources are released as they should be, in all runs in which no `open`
  fails halfway. -/

namespace IpcPerformance

/-- What the handlers acquire. Pointers are given by their addresses, null pointers by `none`;
`SEM_FAILED` is a null pointer, too. -/
inductive RingResource
  /-- A file descriptor, or an open stream. -/
  | descriptor (fd : ℕ)
  | mapping (address : Option ℕ)
  | semaphore (handle : Option ℕ)
  deriving DecidableEq

/-- The fields of a handler that refer to resources, and the log of the system calls. -/
structure RingResources where
  /-- `fd_`, `none` for -1; or `file_`, `none` when it is not open. -/
  fd : Option ℕ
  /-- `address_`. -/
  address : Option ℕ
  /-- `reader_`. -/
  reader : Option ℕ
  /-- `writer_`. -/
  writer : Option ℕ
  /-- What has been acquired and released. -/
  log : List (LedgerEvent RingResource)

/-- The results of the system calls of `open`, one for each call it may come to. -/
structure OpenOutcome where
  /-- The descriptor, if the memory or file can be opened. -/
  opened : Option ℕ
  /-- Whether `ftruncate` succeeds. -/
  truncated : Bool
  /-- The address, if `mmap` succeeds. -/
  mapped : Option ℕ
  /-- The semaphores, as far as `sem_open` succeeds. -/
  reader : Option ℕ
  writer : Option ℕ

namespace RingResources

/-- A new handler. -/
def initial : RingResources := ⟨none, none, none, none, []⟩

/-- `is_open`. -/
def isOpen (h : RingResources) : Bool := h.fd.isSome

/-- The end of both `open` functions: the two semaphores, with a `close` if one of them fails. -/
def openSemaphores (close : RingResources → Bool × RingResources) (h : RingResources)
    (reader writer : Option ℕ) : Bool × RingResources :=
  match reader with
  -- `SEM_FAILED` is in `reader_` when `close` is called
  | none => (false, (close { h with reader := none }).2)
  | some r =>
      let h : RingResources := { h with
        reader := some r, log := h.log ++ [.acquired (.semaphore (some r))] }
      match writer with
      | none => (false, (close { h with writer := none }).2)
      | some w =>
          (true, { h with writer := some w, log := h.log ++ [.acquired (.semaphore (some w))] })

end RingResources

/-- `SharedMemory::close`. -/
def SharedMemory.closeHandler (h : RingResources) : Bool × RingResources :=
  match h.fd with
  | none => (false, h)
  | some fd =>
      -- the two semaphores keep their values
      (true, { h with
        address := none
        fd := none
        log := h.log ++ [.released (.mapping h.address), .released (.descriptor fd),
          .released (.semaphore h.reader), .released (.semaphore h.writer)] })

/-- `SharedMemory::open`, of a memory or a file. -/
def SharedMemory.openHandler (server : Bool) (h : RingResources) (o : OpenOutcome) :
    Bool × RingResources :=
  if h.isOpen then (true, h)
  else
    match o.opened with
    | none => (false, h)
    | some fd =>
        let h : RingResources := { h with fd := some fd, log := h.log ++ [.acquired (.descriptor fd)] }
        -- only the server resizes the memory
        if server && !o.truncated then (false, (closeHandler h).2)
        else
          match o.mapped with
          | none => (false, (closeHandler h).2)
          | some address =>
              let h : RingResources := { h with
                address := some address, log := h.log ++ [.acquired (.mapping (some address))] }
              h.openSemaphores closeHandler o.reader o.writer

/-- `SharedFile::close`. -/
def SharedFile.closeHandler (h : RingResources) : Bool × RingResources :=
  match h.fd with
  | none => (false, h)
  | some fd =>
      (true, { h with
        fd := none
        log := h.log ++ [.released (.descriptor fd), .released (.semaphore h.reader),
          .released (.semaphore h.writer)] })

/-- `SharedFile::open`. -/
def SharedFile.openHandler (h : RingResources) (o : OpenOutcome) : Bool × RingResources :=
  if h.isOpen then (true, h)
  else
    match o.opened with
    | none => (false, h)
    | some fd =>
        let h : RingResources := { h with fd := some fd, log := h.log ++ [.acquired (.descriptor fd)] }
        h.openSemaphores closeHandler o.reader o.writer

/-- A call of a handler. -/
inductive RingResourceCall
  | openHandler (o : OpenOutcome)
  | closeHandler

namespace RingKind

/-- One call. -/
def step (kind : RingKind) (server : Bool) (h : RingResources) :
    RingResourceCall → Option RingResources
  | .openHandler o =>
      match kind with
      | .file => some (SharedFile.openHandler h o).2
      | _ => some (SharedMemory.openHandler server h o).2
  | .closeHandler =>
      match kind with
      | .file => some (SharedFile.closeHandler h).2
      | _ => some (SharedMemory.closeHandler h).2

/-- All calls of `open` succeed that come after the one for the descriptor. -/
def Complete (kind : RingKind) (server : Bool) (o : OpenOutcome) : Prop :=
  (kind = .file ∨ ((server = true → o.truncated = true) ∧ o.mapped.isSome)) ∧
    o.reader.isSome ∧ o.writer.isSome

/-- `open` does not fail once it has a descriptor. -/
def Clean (kind : RingKind) (server : Bool) (h : RingResources) : RingResourceCall → Prop
  | .openHandler o => h.isOpen = true ∨ o.opened = none ∨ kind.Complete server o
  | .closeHandler => True

instance (kind : RingKind) (server : Bool) (o : OpenOutcome) : Decidable (kind.Complete server o) :=
  inferInstanceAs (Decidable (_ ∧ _))

instance (kind : RingKind) (server : Bool) (h : RingResources) :
    (call : RingResourceCall) → Decidable (kind.Clean server h call)
  | .openHandler _ => inferInstanceAs (Decidable (_ ∨ _))
  | .closeHandler => .isTrue trivial

end RingKind

namespace RingResources

/-- Resources are released as they should be: only those that are held, and all of them when the handler
is closed. -/
structure Disciplined (h : RingResources) : Prop where
  settles : ∃ held, Ledger.Settles h.log held
  closed (hclosed : h.isOpen = false) : Ledger.Settles h.log 0

/-- What `close` is going to release. -/
def owned (kind : RingKind) (h : RingResources) : List RingResource :=
  match h.fd with
  | none => []
  | some fd =>
      match kind with
      | .file => [.descriptor fd, .semaphore h.reader, .semaphore h.writer]
      | _ => [.mapping h.address, .descriptor fd, .semaphore h.reader, .semaphore h.writer]

end RingResources

/-! ## What a call does -/

/-- A null pointer: nothing that can be held. -/
def RingResource.IsNull : RingResource → Prop
  | .descriptor _ => False
  | .mapping address => address = none
  | .semaphore handle => handle = none

namespace RingResources

/-- `open` has acquired everything the handler owns then. -/
def Opened (kind : RingKind) (h t : RingResources) : Prop :=
  ∃ acquired : List RingResource, t.log = h.log ++ acquired.map .acquired ∧
    acquired.Perm (t.owned kind) ∧ t.isOpen = true ∧ ∀ r ∈ acquired, ¬ r.IsNull

/-- `open` has acquired something, and `close` has released a null pointer. -/
def Abandoned (kind : RingKind) (h t : RingResources) : Prop :=
  ∃ acquired released : List RingResource,
    t.log = h.log ++ (acquired.map .acquired ++ released.map .released) ∧
      (∀ r ∈ acquired, ¬ r.IsNull) ∧ (∃ r ∈ released, r.IsNull) ∧ (kind ≠ .file → t.address = none)

/-- `close` has released everything the handler owned. -/
def Closed (kind : RingKind) (h t : RingResources) : Prop :=
  t.log = h.log ++ (h.owned kind).map .released ∧ t.fd = none ∧ (kind ≠ .file → t.address = none)

/-- What holds of a handler whatever has gone wrong before. -/
structure Tidy (kind : RingKind) (h : RingResources) : Prop where
  /-- Null pointers are never acquired. -/
  acquired {r : RingResource} (hr : r.IsNull) : .acquired r ∉ h.log
  /-- A memory that is closed is not mapped. -/
  unmapped (hkind : kind ≠ .file) (hclosed : h.fd = none) : h.address = none

end RingResources

variable {kind : RingKind} {server : Bool} {h t : RingResources} {o : OpenOutcome} {fd : ℕ}

/-- `SharedMemory::close` releases null pointers, if there are any among the fields. -/
theorem SharedMemory.abandoned {s : RingResources} {acquired : List RingResource} (hfd : s.fd = some fd)
    (hlog : s.log = h.log ++ acquired.map .acquired) (hacquired : ∀ r ∈ acquired, ¬ r.IsNull)
    (hnull : s.address = none ∨ s.reader = none ∨ s.writer = none) :
    h.Abandoned kind (closeHandler s).2 := by
  refine ⟨acquired, [.mapping s.address, .descriptor fd, .semaphore s.reader, .semaphore s.writer], ?_,
    hacquired, ?_, fun _ => ?_⟩
  · rw [closeHandler, hfd, ← List.append_assoc, ← hlog]
    rfl
  · rcases hnull with hnull | hnull | hnull
    · exact ⟨.mapping s.address, by simp, hnull⟩
    · exact ⟨.semaphore s.reader, by simp, hnull⟩
    · exact ⟨.semaphore s.writer, by simp, hnull⟩
  · rw [closeHandler, hfd]

/-- `SharedFile::close` does, too. -/
theorem SharedFile.abandoned {s : RingResources} {acquired : List RingResource} (hfd : s.fd = some fd)
    (hlog : s.log = h.log ++ acquired.map .acquired) (hacquired : ∀ r ∈ acquired, ¬ r.IsNull)
    (hnull : s.reader = none ∨ s.writer = none) : h.Abandoned .file (closeHandler s).2 := by
  refine ⟨acquired, [.descriptor fd, .semaphore s.reader, .semaphore s.writer], ?_, hacquired, ?_,
    fun hkind => absurd rfl hkind⟩
  · rw [closeHandler, hfd, ← List.append_assoc, ← hlog]
    rfl
  · rcases hnull with hnull | hnull
    · exact ⟨.semaphore s.reader, by simp, hnull⟩
    · exact ⟨.semaphore s.writer, by simp, hnull⟩

/-- Both semaphores are opened, or `close` is called without one of them. -/
theorem RingResources.openSemaphores_cases {close : RingResources → Bool × RingResources}
    {s : RingResources} (acquired : List RingResource) (hfd : s.fd = some fd)
    (hlog : s.log = h.log ++ acquired.map .acquired) (hacquired : ∀ r ∈ acquired, ¬ r.IsNull)
    (howned : ∀ reader writer, (acquired ++ [RingResource.semaphore reader, .semaphore writer]).Perm
      (({ s with reader, writer } : RingResources).owned kind))
    (hclose : ∀ (s : RingResources) (acquired : List RingResource), s.fd = some fd →
      s.log = h.log ++ acquired.map .acquired → (∀ r ∈ acquired, ¬ r.IsNull) →
      s.reader = none ∨ s.writer = none → h.Abandoned kind (close s).2) (reader writer : Option ℕ) :
    ((reader.isSome = true ∧ writer.isSome = true) ∧
      h.Opened kind (s.openSemaphores close reader writer).2) ∨
    (¬ (reader.isSome = true ∧ writer.isSome = true) ∧
      h.Abandoned kind (s.openSemaphores close reader writer).2) := by
  cases reader with
  | none => exact .inr ⟨fun hc => Bool.noConfusion hc.1, hclose _ _ hfd hlog hacquired (.inl rfl)⟩
  | some r =>
      have hlog' : s.log ++ [.acquired (.semaphore (some r))] =
          h.log ++ (acquired ++ [RingResource.semaphore (some r)]).map .acquired := by
        rw [hlog, List.append_assoc, List.map_append]
        rfl
      have hacquired' : ∀ r' ∈ acquired ++ [RingResource.semaphore (some r)], ¬ r'.IsNull :=
        List.forall_mem_append.mpr
          ⟨hacquired, List.forall_mem_singleton.mpr (Option.some_ne_none r)⟩
      cases writer with
      | none =>
          exact .inr ⟨fun hc => Bool.noConfusion hc.2, hclose _ _ hfd hlog' hacquired' (.inr rfl)⟩
      | some w =>
          refine .inl ⟨⟨rfl, rfl⟩, acquired ++ [.semaphore (some r), .semaphore (some w)], ?_,
            howned (some r) (some w), congrArg Option.isSome hfd, ?_⟩
          · simp [openSemaphores, hlog]
          · rw [List.append_cons]
            exact List.forall_mem_append.mpr
              ⟨hacquired', List.forall_mem_singleton.mpr (Option.some_ne_none w)⟩

/-- A memory acquires its mapping after the descriptor, and releases it before. -/
theorem RingResources.perm_owned_memory (hkind : kind ≠ .file) (fd : ℕ)
    (address reader writer : Option ℕ) (log : List (LedgerEvent RingResource)) :
    [RingResource.descriptor fd, .mapping address, .semaphore reader, .semaphore writer].Perm
      ((⟨some fd, address, reader, writer, log⟩ : RingResources).owned kind) := by
  cases kind with
  | file => exact absurd rfl hkind
  | memory => exact .swap _ _ _
  | mapped => exact .swap _ _ _

/-- **What `SharedMemory::open` does** with a descriptor: everything, or `close` in between. -/
theorem SharedMemory.openHandler_cases (hkind : kind ≠ .file) (server : Bool) (hclosed : h.fd = none)
    (hunmapped : h.address = none) (hopened : o.opened = some fd) :
    (kind.Complete server o ∧ h.Opened kind (openHandler server h o).2) ∨
      (¬ kind.Complete server o ∧ h.Abandoned kind (openHandler server h o).2) := by
  have hcomplete : kind.Complete server o ↔
      ((server = true → o.truncated = true) ∧ o.mapped.isSome = true) ∧ o.reader.isSome = true ∧
        o.writer.isSome = true := by
    rw [RingKind.Complete, or_iff_right hkind]
  have hopen : h.isOpen = false := by rw [RingResources.isOpen, hclosed]; rfl
  have hdescriptor : ∀ r ∈ [RingResource.descriptor fd], ¬ r.IsNull :=
    List.forall_mem_singleton.mpr id
  rw [hcomplete, openHandler, hopen, if_neg Bool.false_ne_true]
  simp only [hopened]
  by_cases htruncated : (server && !o.truncated) = true
  · -- `ftruncate` fails: there is no address to unmap
    have hnot : ¬ (server = true → o.truncated = true) := by
      simpa using htruncated
    rw [if_pos htruncated]
    exact .inr ⟨fun hc => hnot hc.1.1, abandoned rfl rfl hdescriptor (.inl hunmapped)⟩
  · have htruncated' : server = true → o.truncated = true := by
      simpa using htruncated
    rw [if_neg htruncated]
    cases hmapped : o.mapped with
    | none =>
        -- `mmap` fails: neither is there one here
        exact .inr ⟨fun hc => Bool.noConfusion hc.1.2, abandoned rfl rfl hdescriptor (.inl hunmapped)⟩
    | some address =>
        have hmapping : ∀ r ∈ [RingResource.descriptor fd, .mapping (some address)], ¬ r.IsNull :=
          List.forall_mem_cons.mpr ⟨id, List.forall_mem_singleton.mpr (Option.some_ne_none address)⟩
        have hsemaphores := RingResources.openSemaphores_cases (h := h) (s := ⟨some fd, some address,
            h.reader, h.writer, h.log ++ [.acquired (.descriptor fd)] ++
              [.acquired (.mapping (some address))]⟩)
          [.descriptor fd, .mapping (some address)] rfl (List.append_assoc _ _ _) hmapping
          (fun reader writer => RingResources.perm_owned_memory hkind fd (some address) reader writer _)
          (fun _ _ hfd hlog hacquired hnull => abandoned hfd hlog hacquired (.inr hnull))
          o.reader o.writer
        rcases hsemaphores with ⟨hboth, ht⟩ | ⟨hnot, ht⟩
        · exact .inl ⟨⟨⟨htruncated', rfl⟩, hboth⟩, ht⟩
        · exact .inr ⟨fun hc => hnot hc.2, ht⟩

/-- **What `SharedFile::open` does** with an open file. -/
theorem SharedFile.openHandler_cases (server : Bool) (hclosed : h.fd = none)
    (hopened : o.opened = some fd) :
    (RingKind.file.Complete server o ∧ h.Opened .file (openHandler h o).2) ∨
      (¬ RingKind.file.Complete server o ∧ h.Abandoned .file (openHandler h o).2) := by
  have hcomplete : RingKind.file.Complete server o ↔ o.reader.isSome = true ∧ o.writer.isSome = true := by
    rw [RingKind.Complete]
    exact and_iff_right (.inl rfl)
  have hopen : h.isOpen = false := by rw [RingResources.isOpen, hclosed]; rfl
  rw [hcomplete, openHandler, hopen, if_neg Bool.false_ne_true]
  simp only [hopened]
  exact RingResources.openSemaphores_cases [.descriptor fd] rfl rfl (List.forall_mem_singleton.mpr id)
    (fun _ _ => .refl _) (fun _ _ => abandoned) o.reader o.writer

/-- What `close` does. -/
theorem RingKind.closed_closeHandler (htidy : h.Tidy kind)
    (hstep : kind.step server h .closeHandler = some t) : h.Closed kind t := by
  cases kind with
  | file =>
      cases hstep
      unfold SharedFile.closeHandler RingResources.Closed RingResources.owned
      cases hfd : h.fd with
      | none => exact ⟨(List.append_nil _).symm, hfd, fun hkind => absurd rfl hkind⟩
      | some fd => exact ⟨rfl, rfl, fun hkind => absurd rfl hkind⟩
  | memory =>
      cases hstep
      unfold SharedMemory.closeHandler RingResources.Closed RingResources.owned
      cases hfd : h.fd with
      | none => exact ⟨(List.append_nil _).symm, hfd, fun hkind => htidy.unmapped hkind hfd⟩
      | some fd => exact ⟨rfl, rfl, fun _ => rfl⟩
  | mapped =>
      cases hstep
      unfold SharedMemory.closeHandler RingResources.Closed RingResources.owned
      cases hfd : h.fd with
      | none => exact ⟨(List.append_nil _).symm, hfd, fun hkind => htidy.unmapped hkind hfd⟩
      | some fd => exact ⟨rfl, rfl, fun _ => rfl⟩

/-- What `open` does: nothing, or as it should, or it is abandoned. -/
theorem RingKind.openHandler_cases (htidy : h.Tidy kind)
    (hstep : kind.step server h (.openHandler o) = some t) :
    ((h.isOpen = true ∨ o.opened = none) ∧ t = h) ∨
      h.isOpen = false ∧ o.opened ≠ none ∧
        ((kind.Complete server o ∧ h.Opened kind t) ∨
          (¬ kind.Complete server o ∧ h.Abandoned kind t)) := by
  cases hfd : h.fd with
  | some fd =>
      have hopen : h.isOpen = true := by rw [RingResources.isOpen, hfd]; rfl
      refine .inl ⟨.inl hopen, ?_⟩
      cases kind <;> cases hstep <;> simp [SharedFile.openHandler, SharedMemory.openHandler, hopen]
  | none =>
      have hopen : h.isOpen = false := by rw [RingResources.isOpen, hfd]; rfl
      cases hopened : o.opened with
      | none =>
          refine .inl ⟨.inr rfl, ?_⟩
          cases kind <;> cases hstep <;>
            simp [SharedFile.openHandler, SharedMemory.openHandler, hopen, hopened]
      | some fd =>
          refine .inr ⟨hopen, Option.some_ne_none fd, ?_⟩
          have hmemory (hkind : kind ≠ .file) :=
            SharedMemory.openHandler_cases hkind server hfd (htidy.unmapped hkind hfd) hopened
          cases kind with
          | file =>
              cases hstep
              exact SharedFile.openHandler_cases server hfd hopened
          | memory =>
              cases hstep
              exact hmemory RingKind.noConfusion
          | mapped =>
              cases hstep
              exact hmemory RingKind.noConfusion

/-- **What a call does.** A clean call does nothing, or acquires what the handler owns then, or releases
what it has owned; a call that is not clean is an `open` that is abandoned. -/
theorem RingKind.step_cases (htidy : h.Tidy kind) {call : RingResourceCall}
    (hstep : kind.step server h call = some t) :
    (kind.Clean server h call ∧ (t = h ∨ (h.isOpen = false ∧ h.Opened kind t) ∨ h.Closed kind t)) ∨
      (¬ kind.Clean server h call ∧ h.Abandoned kind t) := by
  cases call with
  | closeHandler => exact .inl ⟨trivial, .inr (.inr (closed_closeHandler htidy hstep))⟩
  | openHandler o =>
      rcases openHandler_cases htidy hstep with
        ⟨hnothing, ht⟩ | ⟨hclosed, hopened, ⟨hcomplete, ht⟩ | ⟨hcomplete, ht⟩⟩
      · exact .inl ⟨hnothing.imp id .inl, .inl ht⟩
      · exact .inl ⟨.inr (.inr hcomplete), .inr (.inl ⟨hclosed, ht⟩)⟩
      · refine .inr ⟨?_, ht⟩
        rintro (hopen | hnone | hc)
        · exact Bool.noConfusion (hclosed.symm.trans hopen)
        · exact hopened hnone
        · exact hcomplete hc

/-! ## Runs -/

namespace RingResources

/-- A log stays tidy when nothing null is acquired. -/
theorem Tidy.append {events : List (LedgerEvent RingResource)} (htidy : h.Tidy kind)
    (hlog : t.log = h.log ++ events) (hevents : ∀ r : RingResource, r.IsNull → .acquired r ∉ events)
    (hunmapped : kind ≠ .file → t.fd = none → t.address = none) : t.Tidy kind := by
  refine ⟨fun {r} hr hmem => ?_, hunmapped⟩
  rw [hlog, List.mem_append] at hmem
  exact hmem.elim (htidy.acquired hr) (hevents r hr)

/-- Every call keeps a handler tidy. -/
theorem Tidy.step (htidy : h.Tidy kind) {call : RingResourceCall}
    (hstep : kind.step server h call = some t) : t.Tidy kind := by
  rcases RingKind.step_cases htidy hstep with
    ⟨-, rfl | ⟨-, acquired, hlog, -, hopen, hacquired⟩ | ⟨hlog, -, hunmapped⟩⟩ |
    ⟨-, acquired, released, hlog, hacquired, -, hunmapped⟩
  · exact htidy
  · -- `open` has acquired something, and none of it is null
    refine htidy.append hlog (fun r hr hmem => ?_) (fun _ hclosed => ?_)
    · obtain ⟨r', hr', heq⟩ := List.mem_map.mp hmem
      cases heq
      exact hacquired r hr' hr
    · rw [isOpen, hclosed] at hopen
      cases hopen
  · -- `close` acquires nothing
    refine htidy.append hlog (fun r _ hmem => ?_) (fun hkind _ => hunmapped hkind)
    obtain ⟨r', -, heq⟩ := List.mem_map.mp hmem
    cases heq
  · -- one after the other
    refine htidy.append hlog (fun r hr hmem => ?_) (fun hkind _ => hunmapped hkind)
    rcases List.mem_append.mp hmem with hmem | hmem
    · obtain ⟨r', hr', heq⟩ := List.mem_map.mp hmem
      cases heq
      exact hacquired r hr' hr
    · obtain ⟨r', -, heq⟩ := List.mem_map.mp hmem
      cases heq

/-- What is held is what the handler owns. -/
structure Holding (kind : RingKind) (h : RingResources) : Prop extends Tidy kind h where
  held : Ledger.Settles h.log (h.owned kind : Multiset RingResource)

/-- A null pointer has been released. -/
structure Broken (kind : RingKind) (h : RingResources) : Prop extends Tidy kind h where
  released : ∃ r : RingResource, r.IsNull ∧ .released r ∈ h.log

theorem isOpen_eq_false : h.isOpen = false ↔ h.fd = none := by
  rw [isOpen, Option.isSome_eq_false_iff, Option.isNone_iff_eq_none]

/-- A handler that is closed owns nothing. -/
theorem owned_of_closed (kind : RingKind) (hclosed : h.fd = none) : h.owned kind = [] := by
  rw [owned, hclosed]

theorem holding_initial (kind : RingKind) : initial.Holding kind where
  acquired _ := List.not_mem_nil
  unmapped _ _ := rfl
  held := rfl

/-- After a clean call, what is held is what is owned again. -/
theorem Holding.step (hinv : h.Holding kind) {call : RingResourceCall}
    (hclean : kind.Clean server h call) (hstep : kind.step server h call = some t) : t.Holding kind := by
  have htidy := hinv.toTidy.step hstep
  rcases RingKind.step_cases hinv.toTidy hstep with
    ⟨-, rfl | ⟨hclosed, acquired, hlog, hperm, -⟩ | ⟨hlog, hfd, -⟩⟩ | ⟨hnot, -⟩
  · exact hinv
  · -- nothing was held before, so what is held is what has been acquired
    refine ⟨htidy, ?_⟩
    have hnothing := hinv.held
    rw [owned_of_closed kind (isOpen_eq_false.mp hclosed)] at hnothing
    have hheld := hnothing.acquireAll acquired
    rw [← hlog, Multiset.coe_nil, add_zero, Multiset.coe_eq_coe.mpr hperm] at hheld
    exact hheld
  · -- what is released is what was held
    refine ⟨htidy, ?_⟩
    rw [owned_of_closed kind hfd, hlog]
    exact hinv.held.releaseAll
  · exact absurd hclean hnot

/-- A call that is not clean releases a null pointer. -/
theorem Tidy.broken (htidy : h.Tidy kind) {call : RingResourceCall}
    (hclean : ¬ kind.Clean server h call) (hstep : kind.step server h call = some t) :
    t.Broken kind := by
  rcases RingKind.step_cases htidy hstep with
    ⟨hclean', -⟩ | ⟨-, acquired, released, hlog, -, ⟨r, hr, hnull⟩, -⟩
  · exact absurd hclean' hclean
  · refine ⟨htidy.step hstep, r, hnull, ?_⟩
    rw [hlog, List.mem_append, List.mem_append]
    exact .inr (.inr (List.mem_map_of_mem hr))

/-- The log only grows. -/
theorem Broken.step (hbroken : h.Broken kind) {call : RingResourceCall}
    (hstep : kind.step server h call = some t) : t.Broken kind := by
  obtain ⟨r, hnull, hr⟩ := hbroken.released
  refine ⟨hbroken.toTidy.step hstep, r, hnull, ?_⟩
  rcases RingKind.step_cases hbroken.toTidy hstep with
    ⟨-, rfl | ⟨-, acquired, hlog, -⟩ | ⟨hlog, -⟩⟩ | ⟨-, acquired, released, hlog, -⟩
  · exact hr
  · exact hlog ▸ List.mem_append_left _ hr
  · exact hlog ▸ List.mem_append_left _ hr
  · exact hlog ▸ List.mem_append_left _ hr

theorem Holding.disciplined (hinv : h.Holding kind) : h.Disciplined where
  settles := ⟨_, hinv.held⟩
  closed hclosed := by
    have hheld := hinv.held
    rwa [owned_of_closed kind (isOpen_eq_false.mp hclosed)] at hheld

/-- What has never been acquired should not have been released. -/
theorem Broken.not_disciplined (hbroken : h.Broken kind) : ¬ h.Disciplined := by
  rintro ⟨⟨held, hsettles⟩, -⟩
  obtain ⟨r, hnull, hr⟩ := hbroken.released
  exact Ledger.not_settles hr (hbroken.acquired hnull) hsettles

end RingResources

namespace RingKind

/-- **The discipline of the ring handlers**: resources are released as they should be after a run if and
only if no `open` of the run has failed between its descriptor and its second semaphore. -/
theorem disciplined_iff (kind : RingKind) (server : Bool) (calls : List RingResourceCall)
    (t : RingResources) (hrun : runAll (kind.step server) .initial calls = some t) :
    t.Disciplined ↔ Along (kind.step server) (kind.Clean server) .initial calls := by
  rcases runAll_verdict (P := kind.Clean server) (fun _ _ _ hinv hclean => hinv.step hclean)
    (fun _ _ _ hinv hclean => hinv.toTidy.broken hclean) (fun _ _ _ hbroken => hbroken.step)
    (RingResources.holding_initial kind) hrun with ⟨halong, hinv⟩ | ⟨halong, hbroken⟩
  · exact iff_of_true hinv.disciplined halong
  · exact iff_of_false hbroken.not_disciplined halong

/-- A memory is opened and closed. -/
theorem disciplined_iff_session :
    (⟨none, none, some 5, some 6,
      [.acquired (.descriptor 3), .acquired (.mapping (some 4)), .acquired (.semaphore (some 5)),
        .acquired (.semaphore (some 6)), .released (.mapping (some 4)), .released (.descriptor 3),
        .released (.semaphore (some 5)), .released (.semaphore (some 6))]⟩ : RingResources).Disciplined :=
  (disciplined_iff .memory true [.openHandler ⟨some 3, true, some 4, some 5, some 6⟩, .closeHandler] _
    rfl).mpr (by decide)

/-- The memory cannot be resized: `close` unmaps a null pointer, and closes two semaphores that have
never been opened. -/
theorem not_disciplined_unresized :
    ¬ ∀ (kind : RingKind) (server : Bool) (calls : List RingResourceCall) (t : RingResources),
      runAll (kind.step server) .initial calls = some t → t.Disciplined := by
  intro h
  have hdisciplined := h .memory true [.openHandler ⟨some 3, false, none, none, none⟩] _ rfl
  exact absurd (hdisciplined.closed rfl) (by decide)

end RingKind

end IpcPerformance
