import IpcPerformance.Handler.BusPrograms
import IpcPerformance.Library.Ledger

/-! # D-Bus handlers on a bus

Any number of D-Bus handlers, in several processes. Their calls of libdbus come in any order, and any of
them may fail.

* `Balance` — what a handler has to give back, and what it will never give back.
* `BusSafe` — what a handler may assume of the bus while the others use it.
* `DBus.open_server_unique` — a server that is open owns the name, so there is no other one; and all that
  has been acquired has been given back, but for three kinds of leaks. -/

namespace IpcPerformance

/-! ## Resources -/

/-- What libdbus wants to be given back. -/
inductive BusResource
  | connection
  | message
  /-- A container has to be closed, or abandoned. -/
  | container
  | error
  deriving DecidableEq

/-- What a call acquires or gives back. -/
def busEvents : BusCall × BusReply → List (LedgerEvent BusResource)
  | (.busGet, .connection given error) =>
      (if given then [.acquired .connection] else []) ++ if error then [.acquired .error] else []
  | (.requestName, .failed) => [.acquired .error]
  | (.releaseName, .failed) => [.acquired .error]
  | (.freeError, _) => [.released .error]
  | (.unrefConnection, _) => [.released .connection]
  | (.newMethodCall _, .value n) => if n = 0 then [] else [.acquired .message]
  | (.popMessage, .popped .none) => []
  | (.popMessage, .popped _) => [.acquired .message]
  | (.unrefMessage, _) => [.released .message]
  | (.openContainer, .value n) => if n = 0 then [] else [.acquired .container]
  | (.closeContainer, _) => [.released .container]
  | _ => []

/-- What is never given back: the error of `dbus_bus_release_name`, a container when its bytes cannot be
appended, and a message `read` does not return from. -/
def busLeaks : BusCall × BusReply → Multiset BusResource
  | (.releaseName, .failed) => {.error}
  | (.appendBytes _, .value 0) => {.container}
  | (.popMessage, .popped (.call call)) => if call.read.unrefs = 0 then {.message} else 0
  | _ => 0

/-- After these calls, `held` is to be given back, apart from the leaks. -/
def Balance (log : List (BusCall × BusReply)) (held : Multiset BusResource) : Prop :=
  Ledger.Settles (log.flatMap busEvents) (held + (log.map busLeaks).sum)

namespace Balance

variable {log : List (BusCall × BusReply)} {held : Multiset BusResource} {x : BusCall × BusReply}

/-- A call changes what is held. -/
theorem concat {held' : Multiset BusResource} (h : Balance log held)
    (hnext : ∀ events rest, Ledger.Settles events (held + rest) →
      Ledger.Settles (events ++ busEvents x) (held' + (rest + busLeaks x))) :
    Balance (log ++ [x]) held' := by
  rw [Balance, List.flatMap_append, List.flatMap_singleton, List.map_append, List.sum_append,
    List.map_singleton, List.sum_singleton]
  exact hnext _ _ h

/-- A call that has nothing to do with resources. -/
theorem keep (h : Balance log held) (hevents : busEvents x = []) (hleaks : busLeaks x = 0) :
    Balance (log ++ [x]) held :=
  h.concat fun events rest hsettles => by rwa [hevents, hleaks, List.append_nil, add_zero]

/-- Something is acquired. -/
theorem acquire (h : Balance log held) {r : BusResource} (hevents : busEvents x = [.acquired r])
    (hleaks : busLeaks x = 0) : Balance (log ++ [x]) (r ::ₘ held) :=
  h.concat fun events rest hsettles => by
    rw [hevents, hleaks, add_zero, Multiset.cons_add]
    exact hsettles.acquire r

/-- Something is given back. -/
theorem release {r : BusResource} (h : Balance log (r ::ₘ held)) (hevents : busEvents x = [.released r])
    (hleaks : busLeaks x = 0) : Balance (log ++ [x]) held :=
  h.concat fun events rest hsettles => by
    rw [hevents, hleaks, add_zero]
    rw [Multiset.cons_add] at hsettles
    exact hsettles.release

/-- Something that is held will never be given back. -/
theorem leak {r : BusResource} (h : Balance log (r ::ₘ held)) (hevents : busEvents x = [])
    (hleaks : busLeaks x = {r}) : Balance (log ++ [x]) held :=
  h.concat fun events rest hsettles => by
    rw [hevents, hleaks, List.append_nil, add_comm rest, ← add_assoc, add_comm held, Multiset.singleton_add]
    exact hsettles

/-- Something is acquired that will never be given back. -/
theorem waste (h : Balance log held) {r : BusResource} (hevents : busEvents x = [.acquired r])
    (hleaks : busLeaks x = {r}) : Balance (log ++ [x]) held :=
  h.concat fun events rest hsettles => by
    rw [hevents, hleaks, ← add_assoc, add_comm _ ({r} : Multiset BusResource), Multiset.singleton_add]
    exact hsettles.acquire r

end Balance

/-! ## Safe programs -/

variable {P Q α : Type} {daemon : BusDaemon Q}

section Safe

variable (process : P → Q) (server : P → Bool)

/-- Where a server stands. -/
inductive Standing
  /-- It owns the name. -/
  | owner
  /-- It is not in the queue, unless it has failed to leave it. -/
  | absent
  | unknown

/-- What that says of the bus. -/
def Standing.Holds (p : P) (bus : SessionBus P daemon) : Standing → Prop
  | owner => server p = true → bus.Owns (process p)
  | absent => server p = true → (.releaseName, .failed) ∉ bus.log p →
      ¬ daemon.queued bus.state (process p)
  | unknown => True

/-- What a handler knows of the bus. -/
structure Knows (p : P) (standing : Standing) (held : Multiset BusResource) (bus : SessionBus P daemon) :
    Prop where
  standing : standing.Holds process server p bus
  balance : Balance (bus.log p) held

/-- What a handler allows the others to do. -/
structure BusRely (p : P) (bus bus' : SessionBus P daemon) : Prop where
  log : bus'.log p = bus.log p
  owner (hserver : server p = true) (h : bus.Owns (process p)) : bus'.Owns (process p)
  absent (hserver : server p = true) (h : ¬ daemon.queued bus.state (process p)) :
    ¬ daemon.queued bus'.state (process p)

/-- **What is relied on**: the bus is as documented, and the servers have connections of their own. -/
structure Reliable (daemon : BusDaemon Q) : Prop where
  documented : daemon.Documented
  distinct (p q : P) (hp : server p = true) (hq : server q = true) (h : process p = process q) : p = q

variable {process server} {p : P} {standing : Standing} {held : Multiset BusResource}
  {bus bus' : SessionBus P daemon} {c : BusCall} {next : BusReply → BusProgram α}
  {post : α → SessionBus P daemon → Prop}

/-- What is known remains true. -/
theorem Knows.stable (h : Knows process server p standing held bus)
    (hrely : BusRely process server p bus bus') : Knows process server p standing held bus' := by
  refine ⟨?_, hrely.log ▸ h.balance⟩
  cases standing with
  | owner => exact fun hserver => hrely.owner hserver (h.standing hserver)
  | absent =>
      intro hserver hleft
      rw [hrely.log] at hleft
      exact hrely.absent hserver (h.standing hserver hleft)
  | unknown => trivial

/-- A client does not stand anywhere. -/
theorem Knows.of_client (h : Knows process server p standing held bus) (hserver : server p = false)
    (standing' : Standing) : Knows process server p standing' held bus := by
  refine ⟨?_, h.balance⟩
  cases standing' with
  | owner => exact fun htrue => Bool.noConfusion (hserver.symm.trans htrue)
  | absent => exact fun htrue => Bool.noConfusion (hserver.symm.trans htrue)
  | unknown => trivial

/-- The owner remains the owner, while it does not release the name. -/
theorem BusDaemon.Documented.owns (hdocumented : daemon.Documented) {log : P → List (BusCall × BusReply)}
    {q q' : Q} {r : BusReply} {state : daemon.State} (h : daemon.answer q bus.state c r = some state)
    (howns : bus.Owns q') (hother : c = .releaseName → q' ≠ q) : SessionBus.Owns ⟨state, log⟩ q' := by
  rcases howns with howner | hlost
  · exact hdocumented.keeps h howner hother
  · exact .inr (hdocumented.lost h hlost)

variable [DecidableEq P]

variable (process server) in
/-- A program that is safe on a bus. -/
def BusSafe (p : P) (post : α → SessionBus P daemon → Prop) (program : BusProgram α)
    (bus : SessionBus P daemon) : Prop :=
  program.Safe (SessionBus.answer process) (fun _ _ _ => True) (fun _ => True) (BusRely process server) p
    post bus

/-- **A call**, whatever is done before it; only servers make those about the name. -/
theorem BusSafe.call (hbus : Reliable process server daemon) (hserver : c.AboutName → server p = true)
    (h : Knows process server p standing held bus)
    (hnext : ∀ bus₁ r state, Knows process server p standing held bus₁ → c.returns r = true →
      daemon.answer (process p) bus₁.state c r = some state →
      BusSafe process server p post (next r) (bus₁.record p state c r)) :
    BusSafe process server p post (.call c next) bus := by
  intro bus₁ hrely _ r bus₂ _ hanswer
  obtain ⟨hreturns, state, hstate, rfl⟩ := SessionBus.answer_eq_some hanswer
  refine ⟨trivial, fun q hq => ?_, hnext bus₁ r state (h.stable hrely) hreturns hstate⟩
  -- those whose place it could be about are in other processes
  have hother : server q = true → c.AboutName → process q ≠ process p :=
    fun hq' hname heq => hq (hbus.distinct q p hq' (hserver hname) heq)
  refine ⟨bus₁.log_record_of_ne hq state c r, fun hq' howns => ?_, fun hq' habsent => ?_⟩
  · exact hbus.documented.owns hstate howns fun hc => hother hq' (hc ▸ trivial)
  · exact hbus.documented.absent hstate habsent fun hc => hother hq' (hc ▸ trivial)

/-- **A call that is not about the name** leaves everybody in place. What is held depends on the reply. -/
theorem BusSafe.replies (hbus : Reliable process server daemon) (hc : ¬ c.AboutName)
    (h : Knows process server p standing held bus) (held' : BusReply → Multiset BusResource)
    (hheld : ∀ log r, c.returns r = true → Balance log held → Balance (log ++ [(c, r)]) (held' r))
    (hnext : ∀ r (bus' : SessionBus P daemon), c.returns r = true →
      Knows process server p standing (held' r) bus' → BusSafe process server p post (next r) bus') :
    BusSafe process server p post (.call c next) bus := by
  refine .call hbus (fun hname => absurd hname hc) h fun bus₁ r state h₁ hreturns hstate => ?_
  refine hnext r _ hreturns ⟨?_, ?_⟩
  · have hstanding := h₁.standing
    cases standing with
    | owner =>
        exact fun hserver => hbus.documented.owns hstate (hstanding hserver)
          fun hname => absurd (hname ▸ trivial) hc
    | absent =>
        intro hserver hleft
        refine hbus.documented.absent hstate (hstanding hserver fun hmem => hleft ?_)
          fun hname => absurd (hname ▸ trivial) hc
        rw [SessionBus.log_record]
        exact List.mem_append_left _ hmem
    | unknown => trivial
  · rw [SessionBus.log_record]
    exact hheld _ r hreturns h₁.balance

/-- Or it does not. -/
theorem BusSafe.keeps (hbus : Reliable process server daemon) (hc : ¬ c.AboutName)
    (h : Knows process server p standing held bus) {held' : Multiset BusResource}
    (hheld : ∀ log r, Balance log held → Balance (log ++ [(c, r)]) held')
    (hnext : ∀ r (bus' : SessionBus P daemon), Knows process server p standing held' bus' →
      BusSafe process server p post (next r) bus') :
    BusSafe process server p post (.call c next) bus :=
  .replies hbus hc h (fun _ => held') (fun log r _ => hheld log r) fun r bus' _ => hnext r bus'

theorem BusSafe.ret {a : α} (h : post a bus) : BusSafe process server p post (.ret a) bus := h

/-- One program after the other. -/
theorem BusSafe.bind {β : Type} {post : β → SessionBus P daemon → Prop} {program : BusProgram α}
    {f : α → BusProgram β}
    (h : BusSafe process server p (fun a bus => BusSafe process server p post (f a) bus) program bus) :
    BusSafe process server p post (program.bind f) bus :=
  Program.Safe.bind h

/-! ## The methods -/

variable (process server) in
/-- There is one reference to the connection while a handler is open, and then it stands somewhere. -/
def Placed (p : P) (standing : Standing) (dbus : DBus) (bus : SessionBus P daemon) : Prop :=
  Knows process server p (if dbus.isOpen then standing else .absent)
    (if dbus.isOpen then {.connection} else 0) bus

variable (process server) in
/-- What a handler knows between two methods: a server that is open owns the name. -/
def AtRest (p : P) (dbus : DBus) (bus : SessionBus P daemon) : Prop :=
  Placed process server p .owner dbus bus

/-- A step in the building of a message, after which `held'` is held. -/
theorem BusSafe.building (hbus : Reliable process server daemon) {dbus : DBus}
    {post : Bool × DBus → SessionBus P daemon → Prop} {next : BusProgram (Bool × DBus)}
    {rest held' : Multiset BusResource} (hc : c.Plain) (h : Knows process server p standing held bus)
    (hfails : ∀ log, Balance log held → Balance (log ++ [(c, .value 0)]) (.message ::ₘ rest))
    (hdone : ∀ log n, n ≠ 0 → Balance log held → Balance (log ++ [(c, .value n)]) held')
    (hpost : ∀ bus, Knows process server p standing rest bus → post (false, dbus) bus)
    (hnext : ∀ bus, Knows process server p standing held' bus →
      BusSafe process server p post next bus) :
    BusSafe process server p post (DBus.building c dbus next) bus := by
  refine .replies hbus hc.not_aboutName h
    (fun r => if r.status = 0 then .message ::ₘ rest else held') ?_ fun r bus' _ h' => ?_
  · intro log r hreturns hlog
    obtain ⟨n, rfl⟩ := hc.returns hreturns
    by_cases hn : n = 0
    · subst hn
      exact hfails log hlog
    · rw [if_neg (by simpa [BusReply.status] using hn)]
      exact hdone log n hn hlog
  · by_cases hr : r.status = 0
    · rw [if_pos hr] at h' ⊢
      exact .keeps hbus id h' (fun _ _ hlog => hlog.release rfl rfl)
        fun _ bus'' h'' => .ret (hpost bus'' h'')
    · rw [if_neg hr] at h' ⊢
      exact hnext bus' h'

/-- A message that has been prepared is sent, or not; it is given back. -/
theorem BusSafe.sendMessage (hbus : Reliable process server daemon) {dbus : DBus}
    {post : Bool × DBus → SessionBus P daemon → Prop}
    (h : Knows process server p standing (.message ::ₘ held) bus) (timestamp : Int64)
    (bytes : List UInt8)
    (hpost : ∀ sent bus, Knows process server p standing held bus → post (sent, dbus) bus) :
    BusSafe process server p post (dbus.sendMessage timestamp bytes) bus := by
  -- id and timestamp
  refine .building hbus trivial h (fun _ hlog => hlog.keep rfl rfl)
    (fun _ _ _ hlog => hlog.keep rfl rfl) (hpost false) fun _ h => ?_
  refine .building hbus trivial h (fun _ hlog => hlog.keep rfl rfl)
    (fun _ _ _ hlog => hlog.keep rfl rfl) (hpost false) fun _ h => ?_
  -- the container, which stays open when its bytes cannot be appended
  refine .building hbus trivial h (fun _ hlog => hlog.keep rfl rfl)
    (fun _ _ hn hlog => hlog.acquire (if_neg hn) rfl) (hpost false) fun _ h => ?_
  refine .building hbus trivial h (fun _ hlog => hlog.leak rfl rfl)
    (fun _ n hn hlog => hlog.keep rfl ?_) (hpost false) fun _ h => ?_
  · cases n with
    | zero => exact absurd rfl hn
    | succ n => rfl
  refine .building hbus trivial h (fun _ hlog => hlog.release rfl rfl)
    (fun _ _ _ hlog => hlog.release rfl rfl) (hpost false) fun _ h => ?_
  -- the message
  refine .building hbus trivial h (fun _ hlog => hlog.keep rfl rfl)
    (fun _ _ _ hlog => hlog.keep rfl rfl) (hpost false) fun _ h => ?_
  exact .keeps hbus id h (fun _ _ hlog => hlog.release rfl rfl)
    fun _ bus' h' => .ret (hpost true bus' h')

/-- `DBus::write`. -/
theorem BusSafe.write (hbus : Reliable process server daemon) {dbus : DBus}
    (h : AtRest process server p dbus bus) (o : DataObject) (timestamp : Int64) :
    BusSafe process server p (fun r bus => AtRest process server p r.2 bus)
      (dbus.writeProgram o timestamp) bus := by
  unfold DBus.writeProgram
  split
  · rename_i hopen
    rw [AtRest, Placed, if_pos hopen, if_pos hopen] at h
    have hrest {dbus' : DBus} (hdbus : dbus'.isOpen = dbus.isOpen) (bus : SessionBus P daemon)
        (h : Knows process server p .owner {.connection} bus) : AtRest process server p dbus' bus := by
      rwa [AtRest, Placed, hdbus, if_pos hopen, if_pos hopen]
    refine .replies hbus id h
      (fun r => if r.status = 0 then {.connection} else .message ::ₘ {.connection}) ?_
      fun r bus₁ _ h₁ => ?_
    · intro log r hreturns hlog
      obtain ⟨n, rfl⟩ := BusCall.Plain.returns (c := .newMethodCall _) trivial hreturns
      by_cases hn : n = 0
      · subst hn
        exact hlog.keep rfl rfl
      · rw [if_neg (by simpa [BusReply.status] using hn)]
        exact hlog.acquire (if_neg hn) rfl
    · by_cases hr : r.status = 0
      · rw [if_pos hr] at h₁ ⊢
        exact .ret (hrest rfl bus₁ h₁)
      · rw [if_neg hr] at h₁ ⊢
        refine .keeps hbus id h₁ (fun _ _ hlog => hlog.keep rfl rfl) fun _ bus₂ h₂ => ?_
        rcases o.serialize dbus.buffer 0 bufferSize with ⟨size, buffer⟩
        dsimp only
        split
        · exact .keeps hbus id h₂ (fun _ _ hlog => hlog.release rfl rfl)
            fun _ bus₃ h₃ => .ret (hrest rfl bus₃ h₃)
        · exact .sendMessage hbus h₂ timestamp _ fun _ bus₃ h₃ => hrest rfl bus₃ h₃
  · exact .ret h

/-- `DBus::read`. -/
theorem BusSafe.read (hbus : Reliable process server daemon) {dbus : DBus}
    (h : AtRest process server p dbus bus) :
    BusSafe process server p (fun _ bus => AtRest process server p dbus bus) dbus.readProgram bus := by
  unfold DBus.readProgram
  split
  · rename_i hopen
    refine .replies hbus id h (fun r =>
      if (dbus.read r.message).unrefs = 0 then if dbus.isOpen then {.connection} else 0
      else .message ::ₘ if dbus.isOpen then {.connection} else 0) ?_ fun r bus₁ _ h₁ => ?_
    · intro log r hreturns hlog
      cases r with
      | popped message =>
          cases message with
          | none =>
              simp only [BusReply.message, DBus.read, if_pos hopen] at hlog ⊢
              exact hlog.keep rfl rfl
          | other =>
              simp only [BusReply.message, DBus.read, if_pos hopen] at hlog ⊢
              exact hlog.acquire rfl rfl
          | call call =>
              simp only [BusReply.message, DBus.read, if_pos hopen] at hlog ⊢
              by_cases hunrefs : call.read.unrefs = 0
              · rw [if_pos hunrefs]
                exact hlog.waste rfl (if_pos hunrefs)
              · rw [if_neg hunrefs]
                exact hlog.acquire rfl (if_neg hunrefs)
      | _ => cases hreturns
    · dsimp only
      by_cases hunrefs : (dbus.read r.message).unrefs = 0
      · rw [if_pos hunrefs] at h₁ ⊢
        exact .ret h₁
      · rw [if_neg hunrefs] at h₁ ⊢
        exact .keeps hbus id h₁ (fun _ _ hlog => hlog.release rfl rfl) fun _ _ h₂ => .ret h₂
  · exact .ret h

/-- `DBus::await_data` and `DBus::has_data`. -/
theorem BusSafe.poll (hbus : Reliable process server daemon) {dbus : DBus}
    (h : AtRest process server p dbus bus) (milliseconds : ℕ) :
    BusSafe process server p (fun _ bus => AtRest process server p dbus bus) (dbus.poll milliseconds)
      bus := by
  unfold DBus.poll
  split
  · refine .keeps hbus id h (fun _ _ hlog => hlog.keep rfl rfl) fun r bus₁ h₁ => ?_
    split
    · exact .ret h₁
    · exact .keeps hbus id h₁ (fun _ _ hlog => hlog.keep rfl rfl) fun _ _ h₂ => .ret h₂
  · exact .ret h

/-- `DBus::close`, from wherever the handler stands. -/
theorem BusSafe.closeHandler (hbus : Reliable process server daemon) {dbus : DBus}
    (h : Placed process server p standing dbus bus) :
    BusSafe process server p (fun r bus => AtRest process server p r.2 bus ∧ r.2.isOpen = false)
      (dbus.closeHandler (server p)) bus := by
  unfold DBus.closeHandler
  by_cases hopen : dbus.isOpen = true
  · rw [Placed, if_pos hopen, if_pos hopen] at h
    rw [if_pos hopen]
    have hunref (bus : SessionBus P daemon) (h : Knows process server p .absent {.connection} bus) :
        BusSafe process server p (fun r bus => AtRest process server p r.2 bus ∧ r.2.isOpen = false)
          (.call .unrefConnection fun _ => .ret (true, { dbus with isOpen := false })) bus :=
      .keeps hbus id h (fun _ _ hlog => hlog.release rfl rfl) fun _ _ h => .ret ⟨h, rfl⟩
    by_cases hserver : server p = true
    · rw [if_pos hserver]
      refine .call hbus (fun _ => hserver) h fun bus₁ r state h₁ hreturns hstate => hunref _ ?_
      obtain rfl | ⟨n, rfl⟩ := BusCall.AboutName.returns (c := .releaseName) trivial hreturns
      · -- the error is never freed, and the server may still be in the queue
        refine ⟨fun _ hleft => absurd ?_ hleft, ?_⟩
        · rw [SessionBus.log_record]
          exact List.mem_append_right _ List.mem_cons_self
        · rw [SessionBus.log_record]
          exact h₁.balance.waste rfl rfl
      · refine ⟨fun _ _ => hbus.documented.released hstate, ?_⟩
        rw [SessionBus.log_record]
        exact h₁.balance.keep rfl rfl
    · rw [if_neg hserver]
      exact .keeps hbus id h (fun _ _ hlog => hlog.keep rfl rfl) fun _ bus₁ h₁ =>
        hunref bus₁ (h₁.of_client (Bool.eq_false_iff.mpr hserver) _)
  · have hclosed := Bool.eq_false_iff.mpr hopen
    rw [if_neg hopen]
    refine .ret ⟨?_, hclosed⟩
    rw [Placed, if_neg hopen, if_neg hopen] at h
    rwa [AtRest, Placed, if_neg hopen, if_neg hopen]

/-- An error is freed. -/
theorem BusSafe.freeing (hbus : Reliable process server daemon) {r : BusReply} {program : BusProgram α}
    (h : Knows process server p standing ((if r.error then {.error} else 0) + held) bus)
    (hnext : ∀ bus, Knows process server p standing held bus →
      BusSafe process server p post program bus) :
    BusSafe process server p post (freeing r program) bus := by
  unfold IpcPerformance.freeing
  split
  · rename_i herror
    rw [if_pos herror, Multiset.singleton_add] at h
    exact .keeps hbus id h (fun _ _ hlog => hlog.release rfl rfl) fun _ bus₁ h₁ => hnext bus₁ h₁
  · rename_i herror
    rw [if_neg herror, zero_add] at h
    exact hnext bus h

/-- `dbus_bus_get`, and the error is freed. -/
theorem BusSafe.busGet (hbus : Reliable process server daemon) {program : BusReply → BusProgram α}
    (h : Knows process server p .absent 0 bus)
    (hnext : ∀ r bus, Knows process server p .absent (if r.given then {.connection} else 0) bus →
      BusSafe process server p post (program r) bus) :
    BusSafe process server p post (.call .busGet fun r => IpcPerformance.freeing r (program r)) bus := by
  refine .replies hbus id h
    (fun r => (if r.error then {.error} else 0) + if r.given then {.connection} else 0) ?_
    fun r bus₁ _ h₁ => .freeing hbus h₁ fun bus₂ h₂ => hnext r bus₂ h₂
  intro log r hreturns hlog
  cases r with
  | connection given error =>
      cases given with
      | false =>
          cases error with
          | false => exact hlog.keep rfl rfl
          | true => exact hlog.acquire rfl rfl
      | true =>
          cases error with
          | false => exact hlog.acquire rfl rfl
          | true =>
              refine hlog.concat fun events rest hsettles => ?_
              have hboth := (hsettles.acquire BusResource.connection).acquire BusResource.error
              rw [List.append_assoc, zero_add, ← Multiset.singleton_add, ← Multiset.singleton_add,
                ← add_assoc] at hboth
              have hleaks : rest + busLeaks (.busGet, .connection true true) = rest := add_zero rest
              rw [hleaks]
              exact hboth
  | _ => cases hreturns

/-- `DBus::create_server`. -/
theorem BusSafe.createServer (hbus : Reliable process server daemon) (hserver : server p = true)
    {dbus : DBus} (h : Knows process server p .absent 0 bus) :
    BusSafe process server p (fun r bus =>
      Placed process server p (if r.1 then .owner else .unknown) r.2 bus ∧
        (r.1 = true → r.2.isOpen = true)) dbus.createServer bus := by
  refine .busGet hbus h fun r bus₁ h₁ => ?_
  dsimp only
  by_cases hgiven : r.given = true
  · rw [if_pos hgiven] at h₁ ⊢
    refine .call hbus (fun _ => hserver) h₁ fun bus₂ reply state h₂ hreturns hstate => ?_
    have hknows : Knows process server p (if decide (reply.status = 1) then .owner else .unknown)
        ((if reply.error then {.error} else 0) + {.connection})
        (bus₂.record p state .requestName reply) := by
      obtain rfl | ⟨n, rfl⟩ := BusCall.AboutName.returns (c := .requestName) trivial hreturns
      · refine ⟨trivial, ?_⟩
        rw [SessionBus.log_record]
        exact h₂.balance.acquire rfl rfl
      · refine ⟨?_, ?_⟩
        · by_cases hone : (BusReply.value n).status = 1
          · rw [if_pos (decide_eq_true hone)]
            obtain rfl : n = 1 := by simpa [BusReply.status] using hone
            exact fun _ => hbus.documented.primary hstate
          · rw [if_neg (by simpa using hone)]
            trivial
        · rw [SessionBus.log_record]
          exact h₂.balance.keep rfl rfl
    refine .freeing hbus hknows fun bus₃ h₃ => .ret ⟨?_, fun _ => hgiven⟩
    rwa [Placed, if_pos hgiven, if_pos hgiven]
  · rw [if_neg hgiven] at h₁ ⊢
    refine .ret ⟨?_, fun hcreated => by cases hcreated⟩
    rwa [Placed, if_neg hgiven, if_neg hgiven]

/-- `DBus::create_client`. -/
theorem BusSafe.createClient (hbus : Reliable process server daemon) (hserver : server p = false)
    {dbus : DBus} (h : Knows process server p .absent 0 bus) :
    BusSafe process server p (fun r bus =>
      Placed process server p (if r.1 then .owner else .unknown) r.2 bus ∧
        (r.1 = true → r.2.isOpen = true)) dbus.createClient bus := by
  refine .busGet hbus h fun r bus₁ h₁ => .ret ⟨?_, id⟩
  exact h₁.of_client hserver _

/-- `DBus::open`: a handler that could not be created is closed again. -/
theorem BusSafe.openHandler (hbus : Reliable process server daemon) {dbus : DBus}
    (h : AtRest process server p dbus bus) :
    BusSafe process server p (fun r bus => AtRest process server p r.2 bus ∧ r.1 = r.2.isOpen)
      (dbus.openHandler (server p)) bus := by
  unfold DBus.openHandler
  by_cases hopen : dbus.isOpen = true
  · rw [if_pos hopen]
    exact .ret ⟨h, hopen.symm⟩
  · rw [if_neg hopen]
    rw [AtRest, Placed, if_neg hopen, if_neg hopen] at h
    have hcreate : BusSafe process server p (fun r bus =>
        Placed process server p (if r.1 then .owner else .unknown) r.2 bus ∧
          (r.1 = true → r.2.isOpen = true))
        (if server p then dbus.createServer else dbus.createClient) bus := by
      by_cases hserver : server p = true
      · rw [if_pos hserver]
        exact .createServer hbus hserver h
      · rw [if_neg hserver]
        exact .createClient hbus (Bool.eq_false_iff.mpr hserver) h
    refine .bind (hcreate.mono ?_)
    rintro ⟨created, dbus'⟩ bus₁ ⟨hplaced, hcreated⟩
    cases created with
    | true => exact .ret ⟨hplaced, (hcreated rfl).symm⟩
    | false =>
        refine .bind ((BusSafe.closeHandler hbus hplaced).mono ?_)
        rintro ⟨_, dbus''⟩ bus₂ ⟨hrest, hclosed⟩
        exact .ret ⟨hrest, hclosed.symm⟩

/-- `DBus::~DBus`. -/
theorem BusSafe.destroy (hbus : Reliable process server daemon) {dbus : DBus}
    (h : AtRest process server p dbus bus) :
    BusSafe process server p (fun dbus bus => AtRest process server p dbus bus ∧ dbus.isOpen = false)
      (dbus.destroy (server p)) bus := by
  unfold DBus.destroy
  split
  · exact .bind ((BusSafe.closeHandler hbus h).mono fun _ _ hclosed => .ret hclosed)
  · rename_i hopen
    exact .ret ⟨h, Bool.eq_false_iff.mpr hopen⟩

end Safe

/-! ## Runs -/

/-- The result of the last method says whether the handler is open. -/
def BusParty.Reports (l : BusParty) : Prop :=
  match l.last with
  | some (.opened success) => success = l.handler.isOpen
  | some (.closed _) => l.handler.isOpen = false
  | some .destroyed => l.handler.isOpen = false
  | _ => True

namespace DBus

variable [DecidableEq P] {process : P → Q} {server : P → Bool}

/-- Every method is safe. -/
theorem safe_method (hbus : Reliable process server daemon) {p : P} {l : BusParty}
    {bus : SessionBus P daemon} (h : AtRest process server p l.handler bus) (j : BusJob) :
    BusSafe process server p (fun l bus => AtRest process server p l.handler bus ∧ l.Reports)
      (method (server p) l j) bus := by
  cases j with
  | openHandler =>
      exact .bind ((BusSafe.openHandler hbus h).mono fun _ _ hopened => .ret hopened)
  | closeHandler =>
      exact .bind ((BusSafe.closeHandler hbus h).mono fun _ _ hclosed => .ret hclosed)
  | destroy => exact .bind ((BusSafe.destroy hbus h).mono fun _ _ hclosed => .ret hclosed)
  | awaitData => exact .bind ((BusSafe.poll hbus h 5000).mono fun _ _ h => .ret ⟨h, trivial⟩)
  | hasData => exact .bind ((BusSafe.poll hbus h 1).mono fun _ _ h => .ret ⟨h, trivial⟩)
  | write o timestamp =>
      exact .bind ((BusSafe.write hbus h o timestamp).mono fun _ _ h => .ret ⟨h, trivial⟩)
  | read => exact .bind ((BusSafe.read hbus h).mono fun _ _ h => .ret ⟨h, trivial⟩)

/-- What a handler and the others keep to. -/
def rules (hbus : Reliable process server daemon) : (system daemon process server).Rules where
  inv _ := True
  rely := BusRely process server
  idle p l bus := AtRest process server p l.handler bus ∧ l.Reports
  allowed _ _ := True
  granted _ _ _ := True
  rely_refl _ _ := ⟨rfl, fun _ => id, fun _ => id⟩
  rely_trans _ _ _ _ h h' := ⟨h'.log.trans h.log, fun hs ho => h'.owner hs (h.owner hs ho),
    fun hs ha => h'.absent hs (h.absent hs ha)⟩
  idle_stable _ _ _ _ h hrely _ := ⟨h.1.stable hrely, h.2⟩
  method_safe _ _ j _ _ h _ := safe_method hbus h.1 j

end DBus

/-- What holds of a handler between two methods. -/
structure BusSettled (process : P → Q) (server : P → Bool) (bus : SessionBus P daemon) (p : P)
    (l : BusParty) : Prop where
  /-- It is open exactly if `open` has said so, and closed after `close` and the destructor. -/
  reports : l.Reports
  /-- A server that is open owns the name, unless its process has lost a connection. -/
  owner (hserver : server p = true) (hopen : l.handler.isOpen = true) : bus.Owns (process p)
  /-- A server that is closed is not in the queue, if the bus has always let it leave. -/
  absent (hserver : server p = true) (hclosed : l.handler.isOpen = false)
    (hleft : (.releaseName, .failed) ∉ bus.log p) : ¬ daemon.queued bus.state (process p)
  /-- Everything has been given back, but for the connection of a handler that is open, and the leaks. -/
  ledger : Ledger.Settles ((bus.log p).flatMap busEvents)
    ((if l.handler.isOpen then {.connection} else 0) + ((bus.log p).map busLeaks).sum)

/-- **D-Bus handlers on a bus**, on any that is as documented: any number of them, with whatever calls in
whatever order, one call of libdbus at a time, and whatever these return. Servers in different processes
are never open at the same time while they are connected. -/
theorem DBus.open_server_unique [DecidableEq P] (hdocumented : daemon.Documented) {process : P → Q}
    {server : P → Bool}
    (hdistinct : ∀ p q, server p = true → server q = true → process p = process q → p = q)
    {handlers : P → DBus} (hnew : ∀ p, (handlers p).isOpen = false)
    {actions : List (system daemon process server).Action} {t : (system daemon process server).State}
    (hrun : runAll (system daemon process server).step (start daemon process server handlers) actions =
      some t) :
    (∀ p l, t.parties p = .ret l → BusSettled process server t.shared p l) ∧
      ∀ p q l l', t.parties p = .ret l → t.parties q = .ret l' → server p = true → server q = true →
        l.handler.isOpen = true → l'.handler.isOpen = true →
        ¬ daemon.lost t.shared.state (process p) → ¬ daemon.lost t.shared.state (process q) → p = q := by
  have hbus : Reliable process server daemon := ⟨hdocumented, hdistinct⟩
  have hstart : ∀ p, ∃ l, (start daemon process server handlers).parties p = .ret l ∧
      (rules hbus).idle p l (start daemon process server handlers).shared := by
    refine fun p => ⟨_, rfl, ?_, trivial⟩
    change Placed process server p .owner (handlers p) _
    rw [Placed, hnew p]
    exact ⟨fun _ _ => hdocumented.initial _, rfl⟩
  have hgranted : Along (system daemon process server).step (Parallel.Grants (rules hbus).granted)
      (start daemon process server handlers) actions :=
    Parallel.along_grants (fun _ _ _ _ _ => trivial) _
  obtain ⟨-, hidle⟩ := (rules hbus).run trivial hstart (fun _ _ _ => trivial) hgranted hrun
  have hsettled : ∀ p l, t.parties p = .ret l → BusSettled process server t.shared p l := by
    intro p l hl
    obtain ⟨hrest, hreports⟩ := hidle p l hl
    refine ⟨hreports, fun hserver hopen => ?_, fun hserver hclosed => ?_, hrest.balance⟩
    · have hstanding := hrest.standing
      rw [if_pos hopen] at hstanding
      exact hstanding hserver
    · have hstanding := hrest.standing
      rw [hclosed] at hstanding
      exact hstanding hserver
  refine ⟨hsettled, fun p q l l' hl hl' hp hq hopen hopen' hlost hlost' => hdistinct p q hp hq ?_⟩
  have howner := ((hsettled p l hl).owner hp hopen).resolve_right hlost
  rw [((hsettled q l' hl').owner hq hopen').resolve_right hlost'] at howner
  exact (Option.some.inj howner).symm

/-- Somebody else owns the name, but lets others take it away, and is gone before the end. -/
def visitedBus : BusDaemon Bool := nameQueue [[.asks 7 true], [], [], [.disconnects (.stranger 7 true)]]

/-- A server opens, and another one has to close what it has opened in vain. -/
def twoServers : List (DBus.system visitedBus id fun _ => true).Action :=
  [.begin true .openHandler, .reply true (.connection true false), .begin false .openHandler,
    .reply true (.value 1), .reply false (.connection true false), .reply false (.value 2),
    .reply false (.value 1), .reply false (.value 0), .begin true .read,
    .reply true (.popped .other), .reply true (.value 0)]

/-- Both are settled, and one of them is open. -/
theorem DBus.open_server_unique_twoServers : ∃ t,
    runAll (system visitedBus id fun _ => true).step
      (start visitedBus id (fun _ => true) fun _ => ⟨false, 0, fun _ => 0⟩) twoServers = some t ∧
    (∀ p l, t.parties p = .ret l → BusSettled id (fun _ => true) t.shared p l) ∧
      ∀ p q l l', t.parties p = .ret l → t.parties q = .ret l' → true = true → true = true →
        l.handler.isOpen = true → l'.handler.isOpen = true →
        ¬ visitedBus.lost t.shared.state p → ¬ visitedBus.lost t.shared.state q → p = q := by
  obtain ⟨t, hrun⟩ : ∃ t, runAll (system visitedBus id fun _ => true).step
      (start visitedBus id (fun _ => true) fun _ => ⟨false, 0, fun _ => 0⟩) twoServers = some t :=
    ⟨_, rfl⟩
  have hdistinct (p q : Bool) (_ : true = true) (_ : true = true) (h : id p = id q) : p = q := h
  exact ⟨t, hrun, DBus.open_server_unique (NameQueue.documented _) hdistinct (fun _ => rfl) hrun⟩

/-- Two servers of one process have one connection. The second one cannot open, but what it closes is the
name of the first one, which remains open; so a server of another process can open, too. -/
example : ∃ t, runAll (DBus.system (nameQueue []) (fun p : Fin 3 => decide (p = 2)) fun _ => true).step
    (DBus.start _ _ _ fun _ => ⟨false, 0, fun _ => 0⟩)
    [.begin 0 .openHandler, .reply 0 (.connection true false), .reply 0 (.value 1),
      .begin 1 .openHandler, .reply 1 (.connection true false), .reply 1 (.value 4),
      .reply 1 (.value 1), .reply 1 (.value 0),
      .begin 2 .openHandler, .reply 2 (.connection true false), .reply 2 (.value 1)] = some t ∧
    t.parties 0 = .ret ⟨⟨true, 0, fun _ => 0⟩, some (.opened true)⟩ ∧
    t.parties 2 = .ret ⟨⟨true, 0, fun _ => 0⟩, some (.opened true)⟩ :=
  ⟨_, rfl, rfl, rfl⟩

end IpcPerformance
