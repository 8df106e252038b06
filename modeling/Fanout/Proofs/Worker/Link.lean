import Fanout.Proofs.Registry.Invocation
import Fanout.Proofs.Schedule.Crew
import Fanout.Proofs.Text
import Fanout.Proofs.Worker.Line
import Fanout.Worker.Link

/-!
# Workers that serve a registry

Over a link, a process that serves a registry answers an envelope as the registry does
(`Link.run_serving`) and shuts down when asked to (`Link.shutdown_serving`). So a crew of such
processes follows the conduct of the registry: `Registry.crew_follows`.
-/

namespace Fanout

/-! ## Lines as bytes -/

/-- The UTF-8 bytes of a line are those of its text and the byte 10. -/
theorem Utf8.encode_line (text : String) : encode (text ++ "\n") = encode text ++ [10] := by
  rw [encode_append]
  rfl

/-- `splitLine` cuts off a line with its newline. -/
theorem Link.splitLine_append {line : List UInt8} (h : ∀ b ∈ line, 32 ≤ b.toNat)
    (rest : List UInt8) : splitLine (line ++ 10 :: rest) = (line ++ [10], rest) := by
  induction line with
  | nil => rfl
  | cons b line ih =>
    have hb : b ≠ 10 := by
      rintro rfl
      exact absurd (h 10 List.mem_cons_self) (by decide)
    rw [List.cons_append, splitLine, if_neg hb, ih fun c hc => h c (List.mem_cons_of_mem _ hc)]
    rfl

/-- `nextLine` returns a line that has its newline, whether or not the output has ended. -/
theorem Link.nextLine_append {line : List UInt8} (h : ∀ b ∈ line, 32 ≤ b.toNat) (ended : Bool)
    (rest : List UInt8) : nextLine ended (line ++ 10 :: rest) = some (line ++ [10], rest) := by
  rw [nextLine, if_pos (by simp), splitLine_append h]

namespace Service

/-- `linesFrom` ends the line so far at a newline. -/
theorem linesFrom_newline {before : List UInt8} (h : ∀ b ∈ before, 32 ≤ b.toNat) :
    linesFrom before [10] = [before.reverse] := by
  cases before with
  | nil => rfl
  | cons b before =>
    have hb : b ≠ 13 := by
      rintro rfl
      exact absurd (h 13 List.mem_cons_self) (by decide)
    rw [linesFrom.eq_def]
    simp [hb, linesFrom]

/-- `linesFrom` adds a byte other than a newline to the line so far. -/
theorem linesFrom_cons {b : UInt8} (h : b ≠ 10) (before rest : List UInt8) :
    linesFrom before (b :: rest) = linesFrom (b :: before) rest := by
  rw [linesFrom.eq_def]
  exact if_neg h

/-- `linesFrom` of visible bytes and a newline is one line. -/
theorem linesFrom_append {before line : List UInt8} (hbefore : ∀ b ∈ before, 32 ≤ b.toNat)
    (hline : ∀ b ∈ line, 32 ≤ b.toNat) :
    linesFrom before (line ++ [10]) = [before.reverse ++ line] := by
  induction line generalizing before with
  | nil => rw [List.nil_append, List.append_nil, linesFrom_newline hbefore]
  | cons b line ih =>
    have hb := hline b List.mem_cons_self
    have hne : b ≠ 10 := by
      rintro rfl
      exact absurd hb (by decide)
    have hnext := ih (List.forall_mem_cons.mpr ⟨hb, hbefore⟩)
      fun c hc => hline c (List.mem_cons_of_mem _ hc)
    rw [List.cons_append, linesFrom_cons hne, hnext, List.reverse_cons, List.append_assoc,
      List.singleton_append]

/-- `lines` of visible bytes and a newline is that one line. -/
theorem lines_append {line : List UInt8} (h : ∀ b ∈ line, 32 ≤ b.toNat) :
    lines (line ++ [10]) = [line] :=
  linesFrom_append (fun _ hb => by cases hb) h

/-- `linesFrom` treats the bytes behind a newline separately. -/
theorem linesFrom_append_line {line : List UInt8} (h : 10 ∉ line) (before rest : List UInt8) :
    linesFrom before (line ++ 10 :: rest) =
      linesFrom before (line ++ [10]) ++ linesFrom [] rest := by
  induction line generalizing before with
  | nil => rfl
  | cons b line ih =>
    obtain ⟨hb, hline⟩ := not_or.mp (mt List.mem_cons.mpr h)
    rw [List.cons_append, List.cons_append, linesFrom_cons (Ne.symm hb),
      linesFrom_cons (Ne.symm hb), ih hline]

/-- `lines` recovers lines of visible bytes from their concatenation. -/
theorem lines_flatMap {ls : List (List UInt8)} (h : ∀ l ∈ ls, ∀ b ∈ l, 32 ≤ b.toNat) :
    lines (ls.flatMap (· ++ [10])) = ls := by
  induction ls with
  | nil => rfl
  | cons l ls ih =>
    obtain ⟨hl, hls⟩ := List.forall_mem_cons.mp h
    have hnewline : 10 ∉ l := fun hmem => absurd (hl 10 hmem) (by decide)
    have hfirst := lines_append hl
    rw [List.flatMap_cons, List.append_assoc, List.singleton_append, lines,
      linesFrom_append_line hnewline]
    show lines (l ++ [10]) ++ lines _ = _
    rw [hfirst, ih hls, List.singleton_append]

/-- `linesFrom` of bytes that end with their only newline is one line. -/
theorem exists_linesFrom_eq_singleton {line : List UInt8} (h : 10 ∉ line) (before : List UInt8) :
    ∃ read, linesFrom before (line ++ [10]) = [read] := by
  induction line generalizing before with
  | nil => exact ⟨_, rfl⟩
  | cons b line ih =>
    obtain ⟨hb, hline⟩ := not_or.mp (mt List.mem_cons.mpr h)
    rw [List.cons_append, linesFrom_cons (Ne.symm hb)]
    exact ih hline _

end Service

/-! ## A worker that serves a registry -/

/-- How a worker reads the line of a request. -/
def Request.reading : Request → Reading
  | call envelope => .call envelope
  | shutdown => .shutdown

/-- `Reading.ofLine` on the text of a request is `Request.reading`. -/
theorem Reading.ofLine_encode (request : Request) :
    ofLine (Utf8.encode request.toJson.compact) = request.reading := by
  -- the line begins with a brace
  have hvisible : request.toJson.compact.toList.all Text.isBlank = false := by
    rw [Request.toJson_eq, Json.toList_compact_object]
    rfl
  rw [ofLine, Utf8.decode_encode]
  dsimp only
  rw [if_neg (by simp [hvisible]), Request.decode_compact]
  cases request <;> rfl

/-- The encoded request is one line. -/
theorem Request.lines_encode (request : Request) :
    Service.lines (Utf8.encode request.encode) = [Utf8.encode request.toJson.compact] := by
  rw [encode, Utf8.encode_line]
  exact Service.lines_append fun b hb =>
    Utf8.le_of_mem_encode (fun _ hc => Request.le_toNat_of_mem_compact hc) hb

namespace Link

variable {registry : Registry} {link : Link (.serving registry)}

/-- `accept` returns a response whose index is the one asked for. -/
theorem accept_encode {response : Response} {index : UInt64} (h : response.index = index) :
    accept index (Utf8.encode response.toJson.compact ++ [10]) = .ok response := by
  have hline : (Utf8.encode response.toJson.compact ++ [10]).isEmpty = false := by simp
  rw [accept, hline, ← Utf8.encode_line, Utf8.decode_encode]
  have hdecode := Response.decode_encode response
  rw [Response.encode] at hdecode
  simp only [bind, Except.bind, pure, Except.pure, Traversal.mapError_ok, hdecode, h]
  rw [if_neg Bool.false_ne_true, if_neg fun hne => hne rfl]

/-- A serving process that has not exited passes the line of a request to `serveLine`. -/
theorem receive_encode (request : Request) :
    (Peer.serving registry).receive (none : Option UInt8) (Utf8.encode request.encode) =
      Peer.serveLine registry (Utf8.encode request.toJson.compact) := by
  change Peer.serveLine registry ((Service.lines (Utf8.encode request.encode)).headD []) = _
  rw [request.lines_encode, List.headD_cons]

/-- `serveLine` answers the line of a call with the line of `registry.invoke`. -/
theorem serveLine_call (envelope : Envelope) :
    Peer.serveLine registry (Utf8.encode (Request.call envelope).toJson.compact) =
      (none, Utf8.encode (registry.invoke envelope).toJson.compact ++ [10]) := by
  rw [Peer.serveLine, Reading.ofLine_encode, ← Utf8.encode_line]
  rfl

/-- `serveLine` exits with status 0 at the line of a shutdown request. -/
theorem serveLine_shutdown :
    Peer.serveLine registry (Utf8.encode Request.shutdown.toJson.compact) = (some 0, []) := by
  rw [Peer.serveLine, Reading.ofLine_encode]
  rfl

/-- A link to a serving process that has not exited, with no unread bytes. -/
structure Waiting (link : Link (.serving registry)) : Prop where
  /-- The process has not exited. -/
  state : link.state = (none : Option UInt8)
  /-- No bytes are unread. -/
  unread : link.unread = []

/-- A new link is `Waiting`. -/
theorem waiting_start (worker : Nat) : (start (.serving registry) worker).Waiting :=
  ⟨rfl, rfl⟩

/-- A waiting process takes a line. -/
theorem Waiting.inlet (h : link.Waiting) :
    (Peer.serving registry).inlet link.state = .taken := by
  rw [h.state]
  rfl

/-- `read` returns the response that `accept` returns for the next line. -/
theorem read_of_accept {peer : Peer} {link : Link peer} {line rest : List UInt8}
    {index : UInt64} {response : Response}
    (hline : nextLine (peer.outputEnded link.state) link.unread = some (line, rest))
    (haccept : accept index line = .ok response) :
    link.read index =
      ({ link with unread := rest, completed := link.completed + 1 }, .ok response) := by
  rw [read, hline]
  dsimp only
  rw [haccept]

/-- `run` over a waiting link returns `registry.invoke`, leaves the link waiting and adds one to
`completed`. -/
theorem run_serving (h : link.Waiting) (envelope : Envelope) :
    ∃ link', link.run envelope = (link', .ok (registry.invoke envelope)) ∧ link'.Waiting ∧
      link'.completed = link.completed + 1 := by
  -- the only newline of an answer is its last byte, so nothing is left unread
  have hbytes (b : UInt8) (hb : b ∈ Utf8.encode (registry.invoke envelope).toJson.compact) :
      32 ≤ b.toNat :=
    Utf8.le_of_mem_encode (fun _ hc => Response.le_toNat_of_mem_compact hc) hb
  have haccept := accept_encode (registry.index_invoke envelope)
  have hsend : link.send (Request.call envelope).encode =
      { link with
        state := (none : Option UInt8)
        unread := Utf8.encode (registry.invoke envelope).toJson.compact ++ [10] } := by
    rw [send, h.state, h.unread, receive_encode, serveLine_call]
    rfl
  rw [run, h.inlet]
  dsimp only
  rw [hsend]
  exact ⟨_, read_of_accept (nextLine_append hbytes _ []) haccept, ⟨rfl, rfl⟩, rfl⟩

/-- `shutdown` over a waiting link succeeds. -/
theorem shutdown_serving (h : link.Waiting) : link.shutdown = .ok () := by
  rw [shutdown, h.inlet]
  dsimp only
  rw [send, h.state, receive_encode, serveLine_shutdown]
  rfl

end Link

/-- The conduct of workers that serve `registry`: each answers with `registry.invoke`. -/
def Registry.conduct (registry : Registry) : Schedule.Conduct :=
  ⟨fun _ => none, registry.invoke, fun _ => none⟩

/-- A crew of processes that serve `registry` follows `registry.conduct`, with `Link.Waiting` as the
invariant of its links. -/
theorem Registry.crew_follows (registry : Registry) (command : WorkerCommand) (pid : Nat → Nat) :
    ((Program.ofPeer (.serving registry)).crew command pid).Follows registry.conduct
      fun _ link => link.Waiting where
  starts worker _ := ⟨_, rfl, Link.waiting_start worker⟩
  refuses _ _ h := by cases h
  runs _ link envelope hwaiting := by
    obtain ⟨link', hrun, hwaiting', -⟩ := Link.run_serving hwaiting envelope
    refine ⟨link', ?_, hwaiting'⟩
    exact congrArg (fun r : Link _ × Except Failure Response =>
      (r.1, Schedule.Answer.ofExcept r.2)) hrun
  closes _ link hwaiting _ := congrArg Schedule.Answer.ofExcept (Link.shutdown_serving hwaiting)
  sticks _ _ _ _ h := by cases h

end Fanout
