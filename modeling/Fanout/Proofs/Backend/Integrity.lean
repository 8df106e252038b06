import Fanout.Proofs.Backend.Plan
import Fanout.Proofs.Schedule.Occurrence

/-!
# Outputs come from answers

No assumption is made about the worker processes: they may write any bytes or none, and may never
exit. `Backend.outputs_vouched` shows that an application with workers that ends returns outputs
only if each of them is the answer of a worker to the task of its position (`Link.Answers`) and
every worker shut down with status 0, and returns an error otherwise.

An application does not end if it waits for a worker that is `Link.Mute` or `Link.Lingers`.
`Backend.apply_stalls_over_silence` shows that a worker that writes nothing has this effect.
-/

namespace Fanout

namespace Link

variable {peer : Peer} {link : Link peer} {envelope : Envelope} {response : Response}

/-- The link after the worker has taken the line of `envelope`. -/
def asked (link : Link peer) (envelope : Envelope) : Link peer :=
  link.send (Request.call envelope).encode

/-- The next line of a worker that is given `envelope` decodes to `response`. -/
structure Answers (link : Link peer) (envelope : Envelope) (response : Response) : Prop where
  /-- The worker takes the line of `envelope`. -/
  taken : peer.inlet link.state = .taken
  /-- The next line is the text of `response`. -/
  line : ∃ line rest text,
    nextLine (peer.outputEnded (link.asked envelope).state) (link.asked envelope).unread =
        some (line, rest) ∧
      Utf8.decode line = .ok text ∧ Response.decode text = .ok response
  /-- The response has the index of `envelope`. -/
  index : response.index = envelope.index

/-- A worker that keeps `run` waiting: it leaves `envelope` in the pipe, or takes it, keeps its
output open and ends no further line. -/
def Mute (link : Link peer) (envelope : Envelope) : Prop :=
  peer.inlet link.state = .full ∨
    peer.inlet link.state = .taken ∧ peer.outputEnded (link.asked envelope).state = false ∧
      10 ∉ (link.asked envelope).unread

/-- A worker that keeps `shutdown` waiting: it leaves the request in the pipe, or does not exit. -/
def Lingers (link : Link peer) : Prop :=
  peer.inlet link.state = .full ∨
    peer.inlet link.state = .closed ∧ peer.exitStatus link.state = none ∨
    peer.inlet link.state = .taken ∧
      peer.exitStatus (link.send Request.shutdown.encode).state = none

/-- There is no next line iff the output is open and has no newline. -/
theorem nextLine_eq_none_iff {ended : Bool} {bytes : List UInt8} :
    nextLine ended bytes = none ↔ ended = false ∧ 10 ∉ bytes := by
  cases ended <;> simp [nextLine]

/-- `accept` succeeds only for the text of a response with the index asked for. -/
theorem of_accept_eq_ok {index : UInt64} {line : List UInt8}
    (h : accept index line = .ok response) :
    (∃ text, Utf8.decode line = .ok text ∧ Response.decode text = .ok response) ∧
      response.index = index := by
  unfold accept at h
  split at h
  · cases h
  · obtain ⟨text, htext, h⟩ := Traversal.bind_eq_ok_iff.mp h
    obtain ⟨read, hread, h⟩ := Traversal.bind_eq_ok_iff.mp h
    split at h
    · cases h
    · rename_i hindex
      cases h
      have htext := Traversal.mapError_eq_ok_iff.mp htext
      have hread := Traversal.mapError_eq_ok_iff.mp hread
      exact ⟨⟨text, htext, hread⟩, Decidable.not_not.mp hindex⟩

/-- `read` stalls without a next line, and otherwise returns a response or an error. -/
theorem read_cases (link : Link peer) (index : UInt64) :
    (nextLine (peer.outputEnded link.state) link.unread = none ∧
        (link.read index).2 = .error .stalled) ∨
      (∃ line rest response,
        nextLine (peer.outputEnded link.state) link.unread = some (line, rest) ∧
          accept index line = .ok response ∧ (link.read index).2 = .ok response) ∨
      ∃ error, (link.read index).2 = .error (.error error) := by
  rw [read]
  cases hline : nextLine (peer.outputEnded link.state) link.unread with
  | none => exact .inl ⟨rfl, rfl⟩
  | some found =>
    obtain ⟨line, rest⟩ := found
    dsimp only
    cases haccept : accept index line with
    | ok response => exact .inr (.inl ⟨line, rest, response, rfl, haccept, rfl⟩)
    | error reason => exact .inr (.inr ⟨_, rfl⟩)

/-- `run` returns a response that the worker `Answers`, or an error, or it stalls and the worker is
`Mute`. -/
theorem run_cases (link : Link peer) (envelope : Envelope) :
    (∃ response, (link.run envelope).2 = .ok response ∧ link.Answers envelope response) ∨
      (∃ error, (link.run envelope).2 = .error (.error error)) ∨
      (link.run envelope).2 = .error .stalled ∧ link.Mute envelope := by
  rw [run]
  cases hinlet : peer.inlet link.state with
  | taken =>
    rcases (link.asked envelope).read_cases envelope.index with
      ⟨hline, hread⟩ | ⟨line, rest, response, hline, haccept, hread⟩ | ⟨error, hread⟩
    · exact .inr (.inr ⟨hread, .inr ⟨hinlet, nextLine_eq_none_iff.mp hline⟩⟩)
    · obtain ⟨⟨text, htext, hdecode⟩, hindex⟩ := of_accept_eq_ok haccept
      exact .inl ⟨response, hread, hinlet, ⟨line, rest, text, hline, htext, hdecode⟩, hindex⟩
    · exact .inr (.inl ⟨error, hread⟩)
  | closed => exact .inr (.inl ⟨_, rfl⟩)
  | full => exact .inr (.inr ⟨rfl, .inl hinlet⟩)

/-- `await` stalls only if the worker does not exit. -/
theorem await_cases (link : Link peer) :
    link.await = .ok () ∨ (∃ error, link.await = .error (.error error)) ∨
      link.await = .error .stalled ∧ peer.exitStatus link.state = none := by
  rw [await]
  cases peer.exitStatus link.state with
  | none => exact .inr (.inr ⟨rfl, rfl⟩)
  | some status =>
    cases hsuccess : status.success with
    | true => exact .inl (if_pos hsuccess)
    | false => exact .inr (.inl ⟨_, if_neg (Bool.not_eq_true _ ▸ hsuccess)⟩)

/-- `shutdown` stalls only if the worker `Lingers`, and never faults. -/
theorem shutdown_cases (link : Link peer) :
    link.shutdown = .ok () ∨ (∃ error, link.shutdown = .error (.error error)) ∨
      link.shutdown = .error .stalled ∧ link.Lingers := by
  rw [shutdown]
  cases hinlet : peer.inlet link.state with
  | taken =>
    exact (link.send Request.shutdown.encode).await_cases.imp_right
      (Or.imp_right fun ⟨hstalled, hstays⟩ => ⟨hstalled, .inr (.inr ⟨hinlet, hstays⟩)⟩)
  | closed =>
    exact link.await_cases.imp_right
      (Or.imp_right fun ⟨hstalled, hstays⟩ => ⟨hstalled, .inr (.inl ⟨hinlet, hstays⟩)⟩)
  | full => exact .inr (.inr ⟨rfl, .inl hinlet⟩)

end Link

namespace Backend

variable {f : WorkFunction} {state : f.State} {inputs : List f.Input} {host : Host}

section Run

variable (host : Host) (command : WorkerCommand)
  (start : Schedule.Evaluation (Link (host.program command).peer)) (choices : List Schedule.Choice)
  (tasks : List Envelope)

/-- In the run of `choices`, a worker with the task at `position` in hand `Answers` it by
`payload`. -/
def Delivered (position : Nat) (payload : Payload) : Prop :=
  ∃ id link task, start.Moment (Plan.crew host command) choices id (.running position) link ∧
    tasks[position]? = some task ∧ task.index.toNat = position ∧
    link.Answers task (.completed task.index payload)

/-- What the run of `choices` shows about the outputs of its result. -/
structure Vouched (f : WorkFunction) (outputs : List f.Output) : Prop where
  /-- There is one for each task. -/
  length : outputs.length = tasks.length
  /-- Each is decoded from a payload that was `Delivered` for its position. -/
  delivered : ∀ i (h : i < outputs.length), ∃ payload,
    Delivered host command start choices tasks i payload ∧
      f.outputCodec.decode payload = .ok outputs[i]
  /-- Every worker was shut down and exited with success. -/
  exits : ∀ id < start.state.drivers.length, ∃ link,
    start.Moment (Plan.crew host command) choices id .closing link ∧ link.shutdown = .ok ()

/-- A driver waits for a worker that is `Mute` or `Lingers`. -/
def KeptWaiting (last : Schedule.Evaluation (Link (host.program command).peer)) : Prop :=
  ∃ (id : Nat) (driver : Schedule.Driver) (link : Link (host.program command).peer),
    last.state.drivers[id]? = some driver ∧ last.workers[id]? = some (some link) ∧
    ((∃ position task, driver.phase = .running position ∧ tasks[position]? = some task ∧
        link.Mute task) ∨
      driver.phase = .closing ∧ link.Lingers)

end Run

/-- A settled plan has an error, or no outputs for no computations. Runs of workers are no longer
than `State.measure`, and fill no slot but by what was `Delivered` for it. A run that has ended has
an error, or outputs that are `Vouched` for, and one that has not can go on, unless a driver is
`KeptWaiting`. -/
def Plan.Guarded (host : Host) (computations : Nat) : Plan f → Prop
  | settled result => (∃ error, result = .error (.error error)) ∨ computations = 0 ∧ result = .ok []
  | dispatch command options tasks =>
    tasks.length = computations ∧
    ∃ start, Schedule.Evaluation.start tasks options = .ok start ∧
      ∀ choices last, start.run? (crew host command) choices = some last →
        choices.length ≤ start.state.measure ∧
        (∀ position payload, last.state.slots[position]? = some (some payload) →
          Delivered host command start choices tasks position payload) ∧
        (last.state.isFinal →
          (∃ error, last.state.result.bind f.decodeOutputs = .error (.error error)) ∨
          ∃ outputs, last.state.result.bind f.decodeOutputs = .ok outputs ∧
            Vouched host command start choices tasks f outputs) ∧
        (last.state.isFinal = false →
          KeptWaiting host command tasks last ∨
          ∃ choice next, last.step? (crew host command) choice = some next)

/-- The outputs are `Vouched` for by a run of the plan, or there are none. -/
def Plan.Vouches (host : Host) (outputs : List f.Output) : Plan f → Prop
  | settled _ => outputs = []
  | dispatch command options tasks =>
    ∃ start choices last, Schedule.Evaluation.start tasks options = .ok start ∧
      start.run? (crew host command) choices = some last ∧ last.state.isFinal ∧
      last.state.result.bind f.decodeOutputs = .ok outputs ∧
      Vouched host command start choices tasks f outputs

/-- A run of the plan cannot go on, and a driver in it is `KeptWaiting`. -/
def Plan.Stalls (host : Host) : Plan f → Prop
  | settled _ => False
  | dispatch command options tasks =>
    ∃ start choices last, Schedule.Evaluation.start tasks options = .ok start ∧
      start.run? (crew host command) choices = some last ∧ last.state.isFinal = false ∧
      (∀ choice, last.step? (crew host command) choice = none) ∧
      KeptWaiting host command tasks last

/-- Outputs that a plan `Vouches` for need a worker that has exited with success. -/
theorem Plan.Vouches.exists_shutdown {outputs : List f.Output} {plan : Plan f}
    (h : plan.Vouches host outputs) (hne : outputs ≠ []) :
    ∃ command, ∃ link : Link (host.program command).peer, link.shutdown = .ok () := by
  cases plan with
  | settled result => exact absurd h hne
  | dispatch command options tasks =>
    -- the first output has been delivered by some worker
    obtain ⟨start, choices, last, hstart, -, -, -, hvouched⟩ := h
    obtain ⟨_, ⟨id, _, _, hmoment, _⟩, -⟩ := hvouched.delivered 0 (List.length_pos_iff.mpr hne)
    obtain ⟨link, -, hshutdown⟩ := hvouched.exits id (hmoment.lt_length hstart)
    exact ⟨command, link, hshutdown⟩

/-- A plan that `Stalls` does so over a worker that is `Mute` or `Lingers`. -/
theorem Plan.Stalls.exists_link {plan : Plan f} (h : plan.Stalls host) :
    ∃ command, ∃ link : Link (host.program command).peer,
      (∃ task, link.Mute task) ∨ link.Lingers := by
  cases plan with
  | settled result => exact False.elim h
  | dispatch command options tasks =>
    obtain ⟨_, _, _, -, -, -, -, id, driver, link, -, -, hwaits⟩ := h
    refine ⟨command, link, ?_⟩
    rcases hwaits with ⟨position, task, -, -, hmute⟩ | ⟨-, hlingers⟩
    · exact .inl ⟨task, hmute⟩
    · exact .inr hlingers

section Dispatch

variable {command : WorkerCommand} {tasks : List Envelope} {options : Schedule.Options}
  {start last : Schedule.Evaluation (Link (host.program command).peer)}
  {choices : List Schedule.Choice}

theorem ofExcept_eq_value {α : Type} {answer : Except Failure α} {a : α}
    (h : Schedule.Answer.ofExcept answer = .value a) : answer = .ok a := by
  rcases answer with (error | fault | _) | b <;> cases h
  rfl

theorem ofExcept_eq_pending {α : Type} {answer : Except Failure α}
    (h : Schedule.Answer.ofExcept answer = .pending) : answer = .error .stalled := by
  rcases answer with (error | fault | _) | b <;> cases h
  rfl

/-- A response of a worker of `Plan.crew` is one that it `Answers`. -/
theorem Plan.answers_of_run {link : Link (host.program command).peer} {task : Envelope}
    {response : Response} (h : ((Plan.crew host command).run link task).2 = .value response) :
    link.Answers task response := by
  have hrun : (link.run task).2 = .ok response := ofExcept_eq_value h
  rcases link.run_cases task with ⟨other, hother, hanswers⟩ | ⟨error, herror⟩ | ⟨hstalled, -⟩
  · cases hrun.symm.trans hother
    exact hanswers
  · cases hrun.symm.trans herror
  · cases hrun.symm.trans hstalled

/-- A worker of `Plan.crew` with a `pending` answer is `Mute`. -/
theorem Plan.mute_of_run {link : Link (host.program command).peer} {task : Envelope}
    (h : ((Plan.crew host command).run link task).2 = .pending) : link.Mute task := by
  have hrun : (link.run task).2 = .error .stalled := ofExcept_eq_pending h
  rcases link.run_cases task with ⟨other, hother, -⟩ | ⟨error, herror⟩ | ⟨-, hmute⟩
  · cases hrun.symm.trans hother
  · cases hrun.symm.trans herror
  · exact hmute

/-- A worker of `Plan.crew` with a `pending` shutdown `Lingers`. -/
theorem Plan.lingers_of_shutdown {link : Link (host.program command).peer}
    (h : (Plan.crew host command).shutdown link = .pending) : link.Lingers := by
  have hshutdown : link.shutdown = .error .stalled := ofExcept_eq_pending h
  rcases link.shutdown_cases with hok | ⟨error, herror⟩ | ⟨-, hlingers⟩
  · cases hshutdown.symm.trans hok
  · cases hshutdown.symm.trans herror
  · exact hlingers

/-- `Plan.crew` starts or refuses a worker at once. -/
theorem Plan.spawn_ne_pending (id : Nat) : (Plan.crew host command).spawn id ≠ .pending := by
  dsimp only [Plan.crew, Program.crew]
  cases (host.program command).refusal id with
  | none => exact nofun
  | some cause => exact nofun

variable (hindices : ∀ i (h : i < tasks.length), tasks[i].index.toNat = i)
  (hdecode : ∀ payload, (f.outputCodec.decode payload).Returns)
  (hstart : Schedule.Evaluation.start tasks options = .ok start)
  (hrun : start.run? (Plan.crew host command) choices = some last)

include hstart hrun

/-- A driver that `Waits` is `KeptWaiting` by its worker process. -/
theorem keptWaiting_of_waits {id : Nat} (h : last.Waits (Plan.crew host command) id) :
    KeptWaiting host command tasks last := by
  cases h with
  | spawn driver hget hphase hpending => exact absurd hpending (Plan.spawn_ne_pending id)
  | run driver position link task hget hphase hworker htask hpending =>
    rw [(Schedule.Evaluation.tracks_occurs hstart hrun).tasks_eq] at htask
    exact ⟨id, driver, link, hget, hworker,
      .inl ⟨position, task, hphase, htask, Plan.mute_of_run hpending⟩⟩
  | shutdown driver link hget hphase hworker hpending =>
    exact ⟨id, driver, link, hget, hworker, .inr ⟨hphase, Plan.lingers_of_shutdown hpending⟩⟩

/-- A run that has not ended has a step, unless a driver is `KeptWaiting`. -/
theorem keptWaiting_or_exists_step (hfinal : last.state.isFinal = false) :
    KeptWaiting host command tasks last ∨
      ∃ choice next, last.step? (Plan.crew host command) choice = some next :=
  ((Schedule.Evaluation.progress_of_run hstart hrun).2 hfinal).imp_left
    fun ⟨_, hwaits⟩ => keptWaiting_of_waits hstart hrun hwaits

include hindices

/-- A filled slot holds what was `Delivered` for it. -/
theorem delivered_of_slot {position : Nat} {payload : Payload}
    (hslot : last.state.slots[position]? = some (some payload)) :
    Delivered host command start choices tasks position payload := by
  obtain ⟨id, link, task, hmoment, htask, hanswer⟩ :=
    Schedule.Evaluation.exists_moment_of_slot hindices
      (fun _ _ _ h => (Plan.answers_of_run h).index) hstart hrun hslot
  have hindex : task.index.toNat = position := by
    obtain ⟨hlt, rfl⟩ := List.getElem?_eq_some_iff.mp htask
    exact hindices position hlt
  exact ⟨id, link, task, hmoment, htask, hindex, Plan.answers_of_run hanswer⟩

include hdecode

/-- A run that has ended has an error, or outputs that are `Vouched` for. -/
theorem vouched_of_run (hfinal : last.state.isFinal) :
    (∃ error, last.state.result.bind f.decodeOutputs = .error (.error error)) ∨
      ∃ outputs, last.state.result.bind f.decodeOutputs = .ok outputs ∧
        Vouched host command start choices tasks f outputs := by
  have hown (link : Link (host.program command).peer) (task : Envelope) (response : Response)
      (h : ((Plan.crew host command).run link task).2 = .value response) :
      response.index = task.index := (Plan.answers_of_run h).index
  rcases Schedule.Evaluation.result_of_moments hindices hown hstart hrun hfinal with
    ⟨error, hresult⟩ | ⟨payloads, hresult, hslots, hlength, hclosed⟩
  · exact .inl ⟨error, by rw [hresult]; rfl⟩
  · rw [hresult]
    rcases WorkFunction.decodeOutputs_cases hdecode payloads with
      ⟨error, herror⟩ | ⟨outputs, houtputs, hlen, hget⟩
    · exact .inl ⟨error, herror⟩
    · refine .inr ⟨outputs, houtputs, by omega, fun i hi => ?_, fun id hid => ?_⟩
      · have hi' : i < payloads.length := by omega
        refine ⟨payloads[i], delivered_of_slot hindices hstart hrun ?_, hget i hi' hi⟩
        rw [hslots, List.getElem?_map, List.getElem?_eq_getElem hi']
        rfl
      · obtain ⟨link, hmoment, hshutdown⟩ := hclosed id hid
        exact ⟨link, hmoment, ofExcept_eq_value hshutdown⟩

omit hrun in
/-- The plan to dispatch tasks is `Guarded`. -/
theorem guarded_dispatch :
    (Plan.dispatch command options tasks : Plan f).Guarded host tasks.length := by
  refine ⟨rfl, start, hstart, fun choices last hrun => ?_⟩
  refine ⟨(Schedule.Evaluation.progress_of_run hstart hrun).1, fun position payload hslot => ?_,
    fun hfinal => ?_, fun hfinal => ?_⟩
  · exact delivered_of_slot hindices hstart hrun hslot
  · exact vouched_of_run hindices hdecode hstart hrun hfinal
  · exact keptWaiting_or_exists_step hstart hrun hfinal

omit hrun in
/-- The plan to dispatch tasks returns an error or outputs that it `Vouches` for, or its value is
`Failure.stalled` and it `Stalls`. -/
theorem carryOut_dispatch_cases (hne : tasks ≠ []) :
    let plan : Plan f := .dispatch command options tasks
    (∃ error, (plan.carryOut host).value = .error (.error error)) ∨
      (∃ outputs, (plan.carryOut host).value = .ok outputs ∧ outputs.length = tasks.length ∧
        plan.Vouches host outputs) ∨
      (plan.carryOut host).value = .error .stalled ∧ plan.Stalls host := by
  intro plan
  cases hnested : host.nested with
  -- a caller who cannot wait is told so
  | true =>
    refine .inl ⟨Schedule.nestingError, ?_⟩
    rw [Plan.carryOut, Schedule.evaluateBlocking, hnested]
    rfl
  | false =>
    obtain ⟨choices, last, hrun, hrest, hresult⟩ :=
      Schedule.Evaluation.exists_run_carryOut hstart (Plan.crew host command)
    rw [Plan.value_dispatch hnested hne hstart, hresult, Schedule.Evaluation.outcome]
    cases hfinal : last.state.isFinal with
    | true =>
      rcases vouched_of_run hindices hdecode hstart hrun hfinal with
        ⟨error, herror⟩ | ⟨outputs, houtputs, hvouched⟩
      · exact .inl ⟨error, herror⟩
      · exact .inr (.inl ⟨outputs, houtputs, hvouched.length,
          start, choices, last, hstart, hrun, hfinal, houtputs, hvouched⟩)
    | false =>
      rcases keptWaiting_or_exists_step hstart hrun hfinal with hwaiting | ⟨choice, next, hnext⟩
      · exact .inr (.inr ⟨rfl, start, choices, last, hstart, hrun, hfinal, hrest, hwaiting⟩)
      · cases (hrest choice).symm.trans hnext

end Dispatch

/-- A process that takes every line, writes nothing and keeps its output open. -/
def silentPeer : Peer where
  State := Unit
  initial _ := ()
  inlet _ := .taken
  receive _ _ := ((), [])
  outputEnded _ := false
  exited _ := none
  exitStatus _ := some (.code 0)

/-- Over `silentPeer` an evaluation of one task by two workers stalls. -/
theorem evaluate_stalls_over_silence :
    (Schedule.evaluate ((Program.ofPeer silentPeer).crew (.own "fanout") id)
      [⟨0, "square", ⟨[144]⟩, ⟨[3]⟩⟩] ⟨2, 1, true⟩).result = .error .stalled :=
  (@Schedule.evaluate_of_completeWithin _ ((Program.ofPeer silentPeer).crew (.own "fanout") id)
    [⟨0, "square", ⟨[144]⟩, ⟨[3]⟩⟩] ⟨2, 1, true⟩ _
    ⟨.error .stalled, [.spawn 0, .spawned 0, .run 0 0, .spawn 1, .spawned 1, .shutdown 1],
      [.notice (.workerSpawned 0 0 "fanout"), .notice (.workerSpawned 1 1 "fanout"),
        .notice (.workerTerminated 1 0 false)]⟩ 30 (List.cons_ne_nil _ _) rfl rfl).1

end Backend

end Fanout
