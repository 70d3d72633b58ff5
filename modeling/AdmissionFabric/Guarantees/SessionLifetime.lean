import Mathlib.Data.List.Pairwise
import Mathlib.Data.List.Perm.Basic
import AdmissionFabric.Engine.Announced
import AdmissionFabric.Engine.SmallFabric
import AdmissionFabric.Ipc.Server

/-!
# Sessions and their connections

A session should live as long as the connection that it was registered for. This holds as long as
no peer says `Bye`: whatever else ends the loop, `serve` retires the session before it returns, so
the engine has exactly one session for each connection in service. A `Bye` lowers the flag that
`serve` looks at, and the session of that connection stays in the engine for good.
-/

namespace AdmissionFabric

variable {connection : Connection}

/-- Whether an operation leaves the sessions alone. -/
def Operation.keepsSessions : Operation → Bool
  | .registerSession _ _ | .retireSession _ | .beginNewIncarnation _ => false
  | _ => true

namespace EngineCore

/-- Two engines have the same sessions and give out the same nonce next. -/
structure SameSessions (core core' : EngineCore) : Prop where
  sessions : core'.sessions = core.sessions
  nextSessionNonce : core'.nextSessionNonce = core.nextSessionNonce

theorem sameSessions_perform (core : EngineCore) (operation : Operation)
    (h : operation.keepsSessions = true) : core.SameSessions (core.perform operation).2 := by
  have hmoves := core.moves_perform operation
  have hsessions :
      (core.perform operation).2.announced.sessions = core.announced.sessions ∧
      (core.perform operation).2.announced.nextSessionNonce = core.announced.nextSessionNonce := by
    cases operation <;> grind [Announced.Moves, Operation.keepsSessions]
  exact ⟨hsessions.1, hsessions.2⟩

theorem registerSession_eq (core : EngineCore) (publisher : PublisherId) (boot : BootId) :
    (∃ status, core.registerSession publisher boot = (.error status, core)) ∨
      ∃ grant core', core.registerSession publisher boot = (.ok grant, core') ∧
        grant.session = core.nextSessionNonce ∧
        core'.sessions = core.sessions.insertIfNew core.nextSessionNonce
          ⟨core.nextSessionNonce, publisher, boot⟩ ∧
        core'.nextSessionNonce = core.nextSessionNonce + 1 := by
  unfold registerSession
  split
  · exact Or.inl ⟨_, rfl⟩
  · split
    · exact Or.inl ⟨_, rfl⟩
    · split
      · exact Or.inl ⟨_, rfl⟩
      · exact Or.inr ⟨_, _, rfl, rfl, rfl, rfl⟩

theorem mem_sessions_retireSession (core : EngineCore) (session s : SessionNonce) :
    s ∈ (core.retireSession session).2.sessions ↔ s ≠ session ∧ s ∈ core.sessions := by
  unfold retireSession
  split
  · rw [Std.ExtTreeMap.mem_erase, ne_eq, Std.compare_eq_iff_eq, eq_comm]
  · have hnot : session ∉ core.sessions := by
      rwa [Std.ExtTreeMap.mem_iff_isSome_getElem?]
    refine ⟨fun hmem => ⟨?_, hmem⟩, fun h => h.2⟩
    rintro rfl
    exact hnot hmem

theorem nextSessionNonce_retireSession (core : EngineCore) (session : SessionNonce) :
    (core.retireSession session).2.nextSessionNonce = core.nextSessionNonce := by
  unfold retireSession
  split <;> rfl

end EngineCore

open EngineCore

/-! ### What a worker does to the sessions -/

namespace Connection

/-- The session that was registered for a connection. -/
def session (connection : Connection) : Option SessionNonce :=
  match connection.phase with
  | .accepted => none
  | .granted grant => some grant.session
  | .serving session | .leaving session _ => some session
  | .returned session => session

/-- Whether a connection has a session and its `serve` has yet to return. -/
def inService (connection : Connection) : Bool :=
  match connection.phase with
  | .granted _ | .serving _ | .leaving _ _ => true
  | .accepted | .returned _ => false

/-- Whether the worker has left the loop and will not retire the session. -/
def forgetful (connection : Connection) : Bool :=
  match connection.phase with
  | .leaving _ registered => !registered
  | _ => false

/-- Whether the next message of the loop is a `Bye`. -/
def saysBye (maxFrame : UInt32) (connection : Connection) : Bool :=
  match connection.phase, (readMessage connection.stream maxFrame).1 with
  | .serving _, .ok frame => frame.kind = .bye
  | _, _ => false

/-- What a stretch of `serve` can do to the sessions. -/
inductive AdvanceEffect (core : EngineCore) (connection : Connection) :
    EngineCore × Connection → Prop
  | kept {core' : EngineCore} {connection' : Connection} (hcore : core.SameSessions core')
      (hsession : connection'.session = connection.session)
      (hservice : connection'.inService = connection.inService)
      (hforgetful : connection'.forgetful = false) :
      AdvanceEffect core connection (core', connection')
  | registered {core' : EngineCore} {connection' : Connection} {record : SessionRecord}
      (hold : connection.session = none)
      (hsessions : core'.sessions = core.sessions.insertIfNew core.nextSessionNonce record)
      (hnonce : core'.nextSessionNonce = core.nextSessionNonce + 1)
      (hsession : connection'.session = some core.nextSessionNonce)
      (hservice : connection'.inService = true) (hforgetful : connection'.forgetful = false) :
      AdvanceEffect core connection (core', connection')
  | retired {connection' : Connection} {session : SessionNonce}
      (hold : connection.session = some session) (hsession : connection'.session = some session)
      (hservice : connection'.inService = false) (hforgetful : connection'.forgetful = false) :
      AdvanceEffect core connection ((core.retireSession session).2, connection')

section

variable {α μ : Type} (maxFrame : UInt32) (core : EngineCore) (stream : Stream)

theorem greet_effect (hphase : connection.phase = .accepted) :
    AdvanceEffect core connection (greet maxFrame core stream) := by
  have haway (stream : Stream) : AdvanceEffect core connection (core, turnedAway stream) := by
    refine .kept ⟨rfl, rfl⟩ ?_ ?_ rfl <;> simp [session, inService, turnedAway, hphase]
  unfold greet
  split
  · exact haway _
  · split
    · exact haway _
    · split
      · exact haway _
      · split
        · exact haway _
        · rename_i hello _ _
          rcases core.registerSession_eq hello.publisher hello.boot with
            ⟨status, heq⟩ | ⟨grant, core', heq, hsession, hsessions, hnonce⟩
          · rw [heq]
            exact haway _
          · rw [heq]
            refine .registered ?_ hsessions hnonce ?_ rfl rfl
            · simp [session, hphase]
            · simp [session, hsession]

theorem welcome_effect {grant : SessionGrant} (hphase : connection.phase = .granted grant) :
    AdvanceEffect core connection (welcome maxFrame core stream grant) := by
  unfold welcome
  simp only
  split
  · refine .kept ⟨rfl, rfl⟩ ?_ ?_ rfl <;> simp [session, inService, hphase]
  · exact .retired (by simp [session, hphase]) rfl rfl rfl

/-! ### Turns of the loop -/

theorem core_afterReply (core : EngineCore) (reply : Except Status Unit × Stream) :
    (afterReply core reply).core = core := by
  obtain ⟨_ | ⟨⟩, stream⟩ := reply <;> rfl

theorem ending_afterReply (core : EngineCore) (reply : Except Status Unit × Stream) :
    (afterReply core reply).ending ≠ .leave false := by
  obtain ⟨_ | ⟨⟩, stream⟩ := reply <;> nofun

theorem ending_answerCall (decoded : Except Status μ) (call : μ → Outcome α)
    (send : Stream → α → Except Status Unit × Stream) :
    (answerCall maxFrame decoded call send core stream).ending ≠ .leave false := by
  unfold answerCall
  split
  · nofun
  · split
    · nofun
    · exact ending_afterReply _ _

theorem core_answerCall (decoded : Except Status μ) (call : μ → Outcome α)
    (send : Stream → α → Except Status Unit × Stream) :
    (answerCall maxFrame decoded call send core stream).core = match decoded with
      | .error _ => core
      | .ok message => (call message).2 := by
  cases decoded with
  | error status => rfl
  | ok message =>
    rcases hcall : call message with ⟨status | result, core'⟩
    · simp only [answerCall, hcall]
      rfl
    · simp only [answerCall, hcall, core_afterReply]

theorem sameSessions_answerCall (decoded : Except Status μ) {call : μ → Outcome α}
    (send : Stream → α → Except Status Unit × Stream)
    (h : ∀ message, core.SameSessions (call message).2) :
    core.SameSessions (answerCall maxFrame decoded call send core stream).core := by
  rw [core_answerCall]
  split
  · exact ⟨rfl, rfl⟩
  · exact h _

theorem sameSessions_handleMessage (frame : WireFrame) :
    core.SameSessions (handleMessage maxFrame core stream frame).core := by
  unfold handleMessage
  split
  · refine sameSessions_answerCall maxFrame core stream _ _ fun message => ?_
    exact core.sameSessions_perform (.admitRequest message.request message.claim) rfl
  · refine sameSessions_answerCall maxFrame core stream _ _ fun message => ?_
    exact core.sameSessions_perform (.revalidate message.decision message.claim) rfl
  · refine sameSessions_answerCall maxFrame core stream _ _ fun message => ?_
    exact core.sameSessions_perform
      (.revoke message.decision message.reason message.claim) rfl
  · split
    · exact ⟨rfl, rfl⟩
    · rw [core_afterReply]
      exact ⟨rfl, rfl⟩
  · rw [core_afterReply]
    exact ⟨rfl, rfl⟩
  · exact ⟨rfl, rfl⟩
  · exact ⟨rfl, rfl⟩

theorem ending_handleMessage {frame : WireFrame} (h : frame.kind ≠ .bye) :
    (handleMessage maxFrame core stream frame).ending ≠ .leave false := by
  unfold handleMessage
  split
  case h_4 =>
    split
    · nofun
    · exact ending_afterReply _ _
  case h_5 => exact ending_afterReply _ _
  case h_6 hbye => exact absurd hbye h
  case h_7 => nofun
  all_goals exact ending_answerCall maxFrame core stream _ _ _

theorem sameSessions_handleTurn (stop : StopSeen) :
    core.SameSessions (handleTurn maxFrame stop core stream).core := by
  unfold handleTurn
  split
  · exact ⟨rfl, rfl⟩
  · split
    · split <;> exact ⟨rfl, rfl⟩
    · exact sameSessions_handleMessage maxFrame core _ _

theorem ending_handleTurn (stop : StopSeen)
    (h : ∀ frame, (readMessage stream maxFrame).1 = .ok frame → frame.kind ≠ .bye) :
    (handleTurn maxFrame stop core stream).ending ≠ .leave false := by
  unfold handleTurn
  split
  · nofun
  · split
    · split <;> nofun
    · rename_i hread
      exact ending_handleMessage maxFrame core _ (h _ (congrArg Prod.fst hread))

theorem advance_effect (stop : StopSeen) (hbye : connection.saysBye maxFrame = false)
    (hforgetful : connection.forgetful = false) :
    AdvanceEffect core connection (connection.advance maxFrame stop core) := by
  unfold advance
  split
  · rename_i hphase
    exact greet_effect maxFrame core _ hphase
  · rename_i hphase
    exact welcome_effect maxFrame core _ hphase
  · rename_i session hphase
    have hsame := sameSessions_handleTurn maxFrame core connection.stream stop
    have hending := ending_handleTurn maxFrame core connection.stream stop
      fun frame hread hkind => by simp [saysBye, hphase, hread, hkind] at hbye
    simp only
    split
    · refine .kept hsame ?_ ?_ rfl <;> simp [Connection.session, inService, hphase]
    · rename_i registered hleave
      have hregistered : registered = true := by
        cases registered with
        | true => rfl
        | false => exact absurd hleave hending
      subst hregistered
      refine .kept hsame ?_ ?_ rfl <;> simp [Connection.session, inService, hphase]
  · rename_i session registered hphase
    have hregistered : registered = true := by simpa [forgetful, hphase] using hforgetful
    subst hregistered
    exact .retired (by simp [Connection.session, hphase]) rfl rfl rfl
  · exact .kept ⟨rfl, rfl⟩ rfl rfl hforgetful

end

end Connection

/-! ### All workers -/

namespace Server

variable {server : Server}

/-- A server that has not accepted a connection and whose engine has no session. -/
def Started (server : Server) : Prop :=
  server.connections = [] ∧ server.core.sessions = ∅

/-- The events in which no peer says `Bye` and the owner leaves the sessions to the workers. -/
def Polite (maxFrame : UInt32) (server : Server) : ServerEvent → Prop
  | .accept _ => True
  | .advance index _ _ => server.connections[index]?.any (Connection.saysBye maxFrame) = false
  | .operate _ operation => operation.keepsSessions = true

instance (maxFrame : UInt32) (server : Server) :
    ∀ event, Decidable (server.Polite maxFrame event)
  | .accept _ => inferInstanceAs (Decidable True)
  | .advance index _ _ => inferInstanceAs
    (Decidable (server.connections[index]?.any (Connection.saysBye maxFrame) = false))
  | .operate _ operation => inferInstanceAs (Decidable (operation.keepsSessions = true))

/-- The engine has exactly the sessions in service, and no nonce is given out twice. -/
structure Tracked (server : Server) : Prop where
  issued : (server.connections.filterMap Connection.session).Nodup
  below : ∀ s ∈ server.connections.filterMap Connection.session, s < server.core.nextSessionNonce
  live : ∀ s, s ∈ server.core.sessions ↔
    ∃ connection ∈ server.connections, connection.inService = true ∧ connection.session = some s
  faithful : ∀ connection ∈ server.connections, connection.forgetful = false

theorem tracked_of_started (h : server.Started) : server.Tracked := by
  obtain ⟨hconnections, hsessions⟩ := h
  constructor <;> simp [hconnections, hsessions]

theorem Tracked.of_sameSessions (h : server.Tracked) {core : EngineCore}
    (hcore : server.core.SameSessions core) : Tracked { server with core } where
  issued := h.issued
  below := by simpa only [hcore.nextSessionNonce] using h.below
  live := by simpa only [hcore.sessions] using h.live
  faithful := h.faithful

theorem Tracked.accept (h : server.Tracked) (stream : Stream) :
    Tracked { server with connections := server.connections ++ [{ stream }] } := by
  have hnone : Connection.session { stream } = none := rfl
  have hout : Connection.inService { stream } = false := rfl
  constructor
  · simpa [List.filterMap_append, hnone] using h.issued
  · simpa [List.filterMap_append, hnone] using h.below
  · simpa [hout, or_and_right, exists_or] using h.live
  · intro connection hmem
    rcases List.mem_append.mp hmem with hmem | hmem
    · exact h.faithful connection hmem
    · rw [List.mem_singleton.mp hmem]
      rfl

theorem Tracked.perm {core : EngineCore} {connections connections' : List Connection}
    (h : Tracked ⟨core, connections⟩) (hperm : connections.Perm connections') :
    Tracked ⟨core, connections'⟩ where
  issued := (hperm.filterMap _).nodup_iff.mp h.issued
  below s hs := h.below s ((hperm.filterMap _).mem_iff.mpr hs)
  live s := by
    simp only [← hperm.mem_iff]
    exact h.live s
  faithful connection hmem := h.faithful connection (hperm.mem_iff.mpr hmem)

theorem Tracked.advance {core core' : EngineCore} {others : List Connection}
    {connection' : Connection} (h : Tracked ⟨core, connection :: others⟩)
    (heffect : connection.AdvanceEffect core (core', connection')) :
    Tracked ⟨core', connection' :: others⟩ := by
  obtain ⟨hissued, hbelow, hlive, hfaithful⟩ := h
  obtain ⟨-, hothers⟩ := List.forall_mem_cons.mp hfaithful
  simp only [List.mem_cons, exists_eq_or_imp] at hlive
  cases heffect with
  | kept hcore hsession hservice hforgetful =>
    refine ⟨?_, ?_, fun s => ?_, List.forall_mem_cons.mpr ⟨hforgetful, hothers⟩⟩
    · simpa only [List.filterMap_cons, hsession] using hissued
    · simpa only [List.filterMap_cons, hsession, hcore.nextSessionNonce] using hbelow
    · simpa only [List.mem_cons, exists_eq_or_imp, hsession, hservice, hcore.sessions] using hlive s
  | registered hold hsessions hnonce hsession hservice hforgetful =>
    simp only [List.filterMap_cons, hold] at hissued hbelow
    refine ⟨?_, ?_, fun s => ?_, List.forall_mem_cons.mpr ⟨hforgetful, hothers⟩⟩
    · simp only [List.filterMap_cons, hsession, List.nodup_cons]
      exact ⟨fun hmem => Nat.lt_irrefl _ (hbelow _ hmem), hissued⟩
    · simp only [List.filterMap_cons, hsession, hnonce]
      refine List.forall_mem_cons.mpr ⟨Nat.lt_succ_self _, fun s hs => ?_⟩
      exact Nat.lt_succ_of_lt (hbelow s hs)
    · simp only [hold, reduceCtorEq, and_false, false_or] at hlive
      simp only [hsessions, Std.ExtTreeMap.mem_insertIfNew, Std.compare_eq_iff_eq, hlive,
        List.mem_cons, exists_eq_or_imp, hservice, hsession, true_and, Option.some.injEq]
  | @retired _ session hold hsession hservice hforgetful =>
    simp only [List.filterMap_cons, hold] at hissued hbelow
    obtain ⟨hfresh, -⟩ := List.nodup_cons.mp hissued
    refine ⟨?_, ?_, fun s => ?_, List.forall_mem_cons.mpr ⟨hforgetful, hothers⟩⟩
    · simpa only [List.filterMap_cons, hsession] using hissued
    · simpa only [List.filterMap_cons, hsession, nextSessionNonce_retireSession] using hbelow
    · rw [mem_sessions_retireSession, hlive]
      simp only [List.mem_cons, exists_eq_or_imp, hold, hsession, hservice, Bool.false_eq_true,
        false_and, false_or, Option.some.injEq]
      constructor
      · rintro ⟨hne, ⟨-, heq⟩ | hother⟩
        · exact absurd heq.symm hne
        · exact hother
      · rintro ⟨other, hmem, hservice', heq⟩
        refine ⟨?_, Or.inr ⟨other, hmem, hservice', heq⟩⟩
        rintro rfl
        exact hfresh (List.mem_filterMap.mpr ⟨other, hmem, heq⟩)

theorem tracked_step {maxFrame : UInt32} {event : ServerEvent} (h : server.Tracked)
    (hpolite : server.Polite maxFrame event) : (server.step maxFrame event).Tracked := by
  cases event with
  | accept stream => exact h.accept stream
  | operate disk operation =>
    have hcore := (server.core.onDisk disk).sameSessions_perform operation hpolite
    exact h.of_sameSessions ⟨hcore.sessions, hcore.nextSessionNonce⟩
  | advance index disk stop =>
    cases hget : server.connections[index]? with
    | none =>
      simp only [step, hget]
      exact h
    | some connection =>
      simp only [step, hget]
      obtain ⟨hlt, rfl⟩ := List.getElem?_eq_some_iff.mp hget
      have heffect := Connection.advance_effect maxFrame (server.core.onDisk disk) stop
        (by simpa [Polite, hget] using hpolite) (h.faithful _ (List.getElem_mem hlt))
      have hdisk : Tracked ⟨server.core.onDisk disk, server.connections⟩ :=
        h.of_sameSessions ⟨rfl, rfl⟩
      have hstep := (hdisk.perm (List.getElem_cons_eraseIdx_perm hlt).symm).advance heffect
      exact hstep.perm (List.set_perm_cons_eraseIdx hlt _).symm

theorem Tracked.session_ne (h : server.Tracked) {other : Connection}
    (hmem : connection ∈ server.connections) (hother : other ∈ server.connections)
    (hne : connection ≠ other) {s t : SessionNonce} (hs : connection.session = some s)
    (ht : other.session = some t) : s ≠ t := by
  have hpairwise := List.pairwise_filterMap.mp h.issued
  have : Std.Symm fun a b : Connection =>
      ∀ s, a.session = some s → ∀ t, b.session = some t → s ≠ t :=
    ⟨fun a b hab t ht s hs => (hab s hs t ht).symm⟩
  exact hpairwise.forall hmem hother hne s hs t ht

theorem Tracked.size_eq (h : server.Tracked) :
    server.core.sessions.size = (server.connections.filter Connection.inService).length := by
  have hsome : ∀ connection ∈ server.connections.filter Connection.inService,
      connection.session.isSome = true := by
    intro connection hmem
    cases hphase : connection.phase <;>
      simp_all [Connection.inService, Connection.session]
  have hperm : server.core.sessions.keys.Perm
      ((server.connections.filter Connection.inService).filterMap Connection.session) := by
    have hnodup := h.issued.sublist ((List.filter_sublist (p := Connection.inService)).filterMap _)
    refine (List.perm_ext_iff_of_nodup Std.ExtTreeMap.nodup_keys hnodup).mpr fun s => ?_
    simp only [Std.ExtTreeMap.mem_keys, h.live, List.mem_filterMap, List.mem_filter, and_assoc]
  rw [← Std.ExtTreeMap.length_keys, hperm.length_eq, List.filterMap_length_eq_length.mpr hsome]

/-- As long as no peer says `Bye`, a session is not live any more once the `serve` of its connection
has returned, and there are as many live sessions as connections in service. -/
theorem sessions_of_reachable {maxFrame : UInt32} {server : Server}
    (h : TransitionSystem.Reachable Started (step maxFrame) (Polite maxFrame) server) :
    (∀ connection ∈ server.connections, ∀ session,
      connection.phase = .returned (some session) → session ∉ server.core.sessions) ∧
    server.core.sessions.size = (server.connections.filter Connection.inService).length := by
  have htracked : server.Tracked :=
    h.invariant (fun _ => tracked_of_started) fun _ _ => tracked_step
  refine ⟨fun connection hmem session hphase hlive => ?_, htracked.size_eq⟩
  have hsession : connection.session = some session := by simp [Connection.session, hphase]
  obtain ⟨other, hother, hservice, heq⟩ := (htracked.live session).mp hlive
  have hne : connection ≠ other := by
    rintro rfl
    simp [Connection.inService, hphase] at hservice
  exact htracked.session_ne hmem hother hne hsession heq rfl

/-! ### Runs -/

/-- What a peer sends that greets and then sends one more message. -/
def greeting (kind : MessageKind) : Stream where
  arrivals := [
    .ok (encodeWireFrame .hello 0 ({ protocolVersion, publisher := 7, boot := 7 } :
      HelloMessage).encode),
    .ok (encodeWireFrame kind 0 [])]

/-- A connection that is served to its end: greeting, welcome, two turns and the return. -/
def visit (kind : MessageKind) : List ServerEvent :=
  [.accept (greeting kind), .advance 0 [] .never, .advance 0 [] .never, .advance 0 [] .never,
    .advance 0 [] .never, .advance 0 [] .never]

/-- The server after the visit. -/
def afterVisit (kind : MessageKind) : Server :=
  TransitionSystem.run (step Limits.maxFrameBytes) ⟨EngineCore.fresh {}, []⟩ (visit kind)

/-- A peer that sends a `Bye` leaves its session behind. -/
theorem session_left_behind :
    (afterVisit .bye).connections.map (·.phase) = [.returned (some 1)] ∧
      1 ∈ (afterVisit .bye).core.sessions ∧ (afterVisit .bye).core.sessions.size = 1 := by
  decide +kernel

/-- The session of a peer that just hangs up is retired. -/
theorem sessions_after_ping :
    (∀ connection ∈ (afterVisit .ping).connections, ∀ session,
      connection.phase = .returned (some session) →
        session ∉ (afterVisit .ping).core.sessions) ∧
    (afterVisit .ping).core.sessions.size = 0 := by
  have hstarted : Started ⟨EngineCore.fresh {}, []⟩ := ⟨rfl, rfl⟩
  have hpolite : TransitionSystem.Allowed (step Limits.maxFrameBytes) (Polite Limits.maxFrameBytes)
      ⟨EngineCore.fresh {}, []⟩ (visit .ping) := by decide +kernel
  have hend : ((afterVisit .ping).connections.filter Connection.inService).length = 0 := by
    decide +kernel
  have hreachable : TransitionSystem.Reachable Started (step Limits.maxFrameBytes)
      (Polite Limits.maxFrameBytes) (afterVisit .ping) := .run (.init hstarted) hpolite
  obtain ⟨hretired, hsize⟩ := sessions_of_reachable hreachable
  exact ⟨hretired, by rw [hsize, hend]⟩

end Server

end AdmissionFabric
