import Fanout.Proofs.Worker.Link

/-!
# Conversations with workers

A process that serves a registry, fed line by line, writes what `Registry.serve` writes for the same
bytes (`Peer.feed_serveLines`). A conversation over a link to such a process returns what invoking
the registry on each envelope returns (`Link.runAll_serving`). `Link.runAll_refines_invoke` combines
both.
-/

namespace Fanout

/-! ## Serving line by line -/

namespace Peer

/-- The state of `peer` after the given lines, and everything it has written for them. -/
def feed (peer : Peer) (state : peer.State) : List (List UInt8) → peer.State × List UInt8
  | [] => (state, [])
  | line :: rest =>
    let (state, output) := peer.receive state line
    let (state, further) := peer.feed state rest
    (state, output ++ further)

theorem feed_cons (peer : Peer) (state : peer.State) (line : List UInt8)
    (rest : List (List UInt8)) :
    peer.feed state (line :: rest) =
      ((peer.feed (peer.receive state line).1 rest).1,
        (peer.receive state line).2 ++ (peer.feed (peer.receive state line).1 rest).2) := rfl

/-- The state of a serving process that has exited with `code`. -/
def stopped (registry : Registry) (code : UInt8) : (serving registry).State :=
  (some code : Option UInt8)

variable (registry : Registry)

/-- A process that has exited writes nothing more. -/
theorem feed_stopped (code : UInt8) (lines : List (List UInt8)) :
    (serving registry).feed (stopped registry code) lines = (stopped registry code, []) := by
  induction lines with
  | nil => rfl
  | cons line lines ih =>
    have hreceive : (serving registry).receive (stopped registry code) line =
        (stopped registry code, []) := rfl
    rw [feed_cons, hreceive, ih]
    rfl

/-- The exit status of a worker for the result of `serve`: 0 for `ok`, 1 for an error. -/
def statusOf : Except ServeError Nat → ExitStatus
  | .ok _ => .code 0
  | .error _ => .code 1

/-- Feeding lines one by one to `Peer.serving registry` writes the bytes of `serveLines` on all of
them, and the final state has its exit status once `serveLines` has stopped. -/
theorem feed_serveLines {lines : List (List UInt8)} (h : ∀ line ∈ lines, 10 ∉ line)
    (worker served : Nat) :
    let service := Service.serveLines registry .unlimited served
      (Service.lines (lines.flatMap (· ++ [10])))
    let fed := (serving registry).feed ((serving registry).initial worker)
      (lines.map (· ++ [10]))
    fed.2 = service.responses.flatMap (fun response => Utf8.encode response.encode) ∧
      (serving registry).exitStatus fed.1 = some (statusOf service.result) := by
  induction lines generalizing served with
  | nil => exact ⟨rfl, rfl⟩
  | cons line lines ih =>
    obtain ⟨hline, hlines⟩ := List.forall_mem_cons.mp h
    -- both sides read the same text from the first line
    obtain ⟨read, hread⟩ := Service.exists_linesFrom_eq_singleton hline []
    have hreceive : (serving registry).receive ((serving registry).initial worker)
        (line ++ [10]) = serveLine registry read := by
      show serveLine registry ((Service.lines (line ++ [10])).headD []) = _
      rw [Service.lines, hread, List.headD_cons]
    rw [List.flatMap_cons, List.append_assoc, List.singleton_append, Service.lines,
      Service.linesFrom_append_line hline, hread, List.singleton_append, List.map_cons, feed_cons,
      hreceive, serveLine, Service.serveLines]
    cases Reading.ofLine read with
    | blank => exact ih hlines served
    | call envelope =>
      obtain ⟨houtput, hstatus⟩ := ih hlines (served + 1)
      exact ⟨congrArg (Utf8.encode (registry.invoke envelope).encode ++ ·) houtput, hstatus⟩
    -- serving is over, so the rest of the lines makes no difference
    | shutdown =>
      have hrest := feed_stopped registry 0 (lines.map (· ++ [10]))
      exact ⟨congrArg Prod.snd hrest, congrArg (fun fed => Peer.exitStatus _ fed.1) hrest⟩
    | error error =>
      have hrest := feed_stopped registry 1 (lines.map (· ++ [10]))
      exact ⟨congrArg Prod.snd hrest, congrArg (fun fed => Peer.exitStatus _ fed.1) hrest⟩

end Peer

/-! ## Conversations -/

/-- The lines of `requests`, concatenated as bytes. -/
def Request.bytes (requests : List Request) : List UInt8 :=
  requests.flatMap fun request => Utf8.encode request.encode

theorem Request.newline_not_mem (request : Request) : 10 ∉ Utf8.encode request.toJson.compact := by
  intro hmem
  have hle := Utf8.le_of_mem_encode (fun _ hc => request.le_toNat_of_mem_compact hc) hmem
  exact absurd hle (by decide)

theorem Request.bytes_eq (requests : List Request) :
    bytes requests =
      (requests.map fun request => Utf8.encode request.toJson.compact).flatMap (· ++ [10]) := by
  rw [bytes, List.flatMap_map]
  congr 1
  funext request
  exact Utf8.encode_line _

/-- `Service.lines` cuts `Request.bytes` back into the texts of the requests. -/
theorem Service.lines_bytes (requests : List Request) :
    lines (Request.bytes requests) =
      requests.map fun request => Utf8.encode request.toJson.compact := by
  rw [Request.bytes_eq]
  refine lines_flatMap fun line hmem => ?_
  obtain ⟨request, -, rfl⟩ := List.mem_map.mp hmem
  exact fun b hb => Utf8.le_of_mem_encode (fun _ hc => request.le_toNat_of_mem_compact hc) hb

/-- On calls followed by a shutdown request, `serveLines` answers each call with
`registry.invoke`. -/
theorem Service.serveLines_conversation (registry : Registry) (envelopes : List Envelope)
    (served : Nat) :
    let service := serveLines registry .unlimited served
      (lines (Request.bytes (envelopes.map .call ++ [.shutdown])))
    service.responses = envelopes.map registry.invoke ∧
      service.result = .ok (served + envelopes.length) := by
  rw [lines_bytes]
  induction envelopes generalizing served with
  | nil =>
    rw [List.map_nil, List.nil_append, List.map_singleton, serveLines, Reading.ofLine_encode]
    exact ⟨rfl, rfl⟩
  | cons envelope envelopes ih =>
    obtain ⟨hresponses, hresult⟩ := ih (served + 1)
    rw [List.map_cons, List.cons_append, List.map_cons, serveLines, Reading.ofLine_encode]
    refine ⟨congrArg (registry.invoke envelope :: ·) hresponses, hresult.trans ?_⟩
    rw [List.length_cons, Nat.add_assoc, Nat.add_comm 1]

namespace Link

/-- Run the envelopes over one link, in order, and collect the answers. -/
def runAll {peer : Peer} (link : Link peer) :
    List Envelope → Link peer × List (Except Failure Response)
  | [] => (link, [])
  | envelope :: rest =>
    let (link, answer) := link.run envelope
    let (link, answers) := link.runAll rest
    (link, answer :: answers)

/-- Over a waiting link, `runAll` answers each envelope with `registry.invoke`, adds their number to
`completed` and leaves the link waiting. -/
theorem runAll_serving {registry : Registry} {link : Link (.serving registry)} (h : link.Waiting)
    (envelopes : List Envelope) :
    ∃ link', link.runAll envelopes =
        (link', envelopes.map fun envelope => .ok (registry.invoke envelope)) ∧
      link'.Waiting ∧ link'.completed = link.completed + envelopes.length := by
  induction envelopes generalizing link with
  | nil => exact ⟨link, rfl, h, rfl⟩
  | cons envelope envelopes ih =>
    obtain ⟨middle, hrun, hwaiting, hcompleted⟩ := run_serving h envelope
    obtain ⟨last, hrest, hlast, hcount⟩ := ih hwaiting
    refine ⟨last, ?_, hlast, ?_⟩
    · rw [runAll, hrun]
      dsimp only
      rw [hrest]
      rfl
    · rw [hcount, hcompleted, List.length_cons]
      omega

/-- Every conversation over a link to a worker that serves `registry` agrees with `Registry.invoke`
and with `Registry.serve`: `runAll` returns `registry.invoke` of each envelope, `completed` is their
number, and the shutdown succeeds; `serve` on the bytes of the same requests gives the same
responses and ends with their number; and on any sequence of requests the process writes what
`serve` writes. -/
theorem runAll_refines_invoke (registry : Registry) (worker : Nat) (envelopes : List Envelope) :
    let conversation := (start (.serving registry) worker).runAll envelopes
    let service := registry.serve .unlimited
      (Request.bytes (envelopes.map .call ++ [.shutdown]))
    conversation.2 = envelopes.map (fun envelope => .ok (registry.invoke envelope)) ∧
      conversation.1.completed = envelopes.length ∧
      conversation.1.shutdown = .ok () ∧
      service.responses = envelopes.map registry.invoke ∧
      service.result = .ok envelopes.length ∧
      ∀ requests : List Request,
        ((Peer.serving registry).feed ((Peer.serving registry).initial worker)
            (requests.map fun request => Utf8.encode request.encode)).2 =
          (registry.serve .unlimited (Request.bytes requests)).responses.flatMap fun response =>
            Utf8.encode response.encode := by
  intro conversation service
  obtain ⟨link, hrun, hwaiting, hcompleted⟩ := runAll_serving (waiting_start worker) envelopes
  have hconversation : conversation = (link, _) := hrun
  obtain ⟨hresponses, hresult⟩ := Service.serveLines_conversation registry envelopes 0
  rw [Nat.zero_add] at hresult
  rw [hconversation]
  refine ⟨rfl, ?_, shutdown_serving hwaiting, hresponses, hresult, fun requests => ?_⟩
  · exact hcompleted.trans (Nat.zero_add _)
  · have hlines : ∀ line ∈ requests.map (fun request => Utf8.encode request.toJson.compact),
        10 ∉ line := by
      intro line hmem
      obtain ⟨request, -, rfl⟩ := List.mem_map.mp hmem
      exact request.newline_not_mem
    obtain ⟨hwritten, -⟩ := Peer.feed_serveLines registry hlines worker 0
    rw [← Request.bytes_eq, List.map_map] at hwritten
    have hencode : requests.map ((· ++ [10]) ∘ fun request => Utf8.encode request.toJson.compact) =
        requests.map fun request => Utf8.encode request.encode :=
      List.map_congr_left fun request _ => (Utf8.encode_line _).symm
    rw [← hencode]
    exact hwritten

end Link

end Fanout
