import Fanout.Proofs.Worker.Conversation
import Fanout.Proofs.Worker.Input

/-!
# What serving amounts to

`Registry.serve_reference` describes `Registry.serve` by a relation that does not mention its loop.
The lines up to some point are blank or calls (`Service.Asked`), at that point something stops the
worker (`Service.Stops`), and the responses are those of the registry to the calls. Blank lines and
everything behind the stop are ignored.
-/

namespace Fanout

/-- The sink accepts `count` writes. -/
def Sink.Takes (sink : Sink) (count : Nat) : Prop :=
  ∀ capacity, sink.capacity = some capacity → count ≤ capacity

theorem Sink.takes_succ_iff {sink : Sink} {served : Nat} :
    sink.Takes (served + 1) ↔ ¬ (sink.capacity.any (· ≤ served)) = true := by
  rw [Takes]
  cases sink.capacity with
  | none => simp
  | some capacity =>
    simp only [Option.some.injEq, forall_eq', Option.any_some, decide_eq_true_eq, Nat.not_le]
    exact Nat.add_one_le_iff

/-- The `IoKind` of the error that ends `serve`. -/
def ServeError.kind : ServeError → IoKind
  | malformed _ => .invalidData
  | io e => e.kind

namespace Service

/-- `Asked lines envelopes`: every line is blank or a call, and `envelopes` are the calls in
order. -/
inductive Asked : List (List UInt8) → List Envelope → Prop
  | nil : Asked [] []
  /-- A blank line adds nothing. -/
  | blank {line : List UInt8} {lines : List (List UInt8)} {envelopes : List Envelope}
      (h : Blank line) (hrest : Asked lines envelopes) : Asked (line :: lines) envelopes
  /-- A call adds its envelope. -/
  | call {line : List UInt8} {lines : List (List UInt8)} {envelope : Envelope}
      {envelopes : List Envelope} (h : Says line (.ok (.call envelope)))
      (hrest : Asked lines envelopes) : Asked (line :: lines) (envelope :: envelopes)

/-- `Stops sink served rest result`: after `served` answers, with `rest` still to be read, the
worker stops with `result`. -/
inductive Stops (sink : Sink) (served : Nat) : List (List UInt8) → Except ServeError Nat → Prop
  /-- The input has ended. -/
  | inputEnds : Stops sink served [] (.ok served)
  /-- The next line is a shutdown request. -/
  | shutdown {line : List UInt8} {rest : List (List UInt8)} (h : Says line (.ok .shutdown)) :
      Stops sink served (line :: rest) (.ok served)
  /-- The next line is no UTF-8. -/
  | unreadable {line : List UInt8} {rest : List (List UInt8)} (h : Unreadable line) :
      Stops sink served (line :: rest) (.error (.io .notText))
  /-- The next line is not blank, and no request. -/
  | malformed {line : List UInt8} {rest : List (List UInt8)} {error : Json.ReadError}
      (h : Says line (.error error)) : Stops sink served (line :: rest) (.error (.malformed error))
  /-- The next line is a call, and the sink does not take its answer. -/
  | unwritable {line : List UInt8} {rest : List (List UInt8)} {envelope : Envelope}
      (h : Says line (.ok (.call envelope))) (hsink : ¬ sink.Takes (served + 1)) :
      Stops sink served (line :: rest) (.error (.io sink.failure))

/-- The bytes written by a service: the lines of its responses. -/
def written (service : Service) : List UInt8 :=
  service.responses.flatMap fun response => Utf8.encode response.encode

/-- Reference for `serveLines`: the lines are `Asked` up to a rest at which the worker `Stops`, and
the responses are `registry.invoke` of the envelopes asked for. -/
def Serves (registry : Registry) (sink : Sink) (lines : List (List UInt8))
    (responses : List Response) (written : List UInt8) (result : Except ServeError Nat) : Prop :=
  ∃ before rest envelopes, lines = before ++ rest ∧ Asked before envelopes ∧
    sink.Takes envelopes.length ∧ Stops sink envelopes.length rest result ∧
    responses = envelopes.map registry.invoke ∧
    written = envelopes.flatMap fun envelope => Utf8.encode (registry.invoke envelope).encode

variable (registry : Registry) {sink : Sink}

/-- `serveLines` ignores a blank line at any position. -/
theorem serveLines_blank {line : List UInt8} (h : Blank line) (served : Nat)
    (before after : List (List UInt8)) :
    serveLines registry sink served (before ++ line :: after) =
      serveLines registry sink served (before ++ after) := by
  induction before generalizing served with
  | nil => rw [List.nil_append, List.nil_append, serveLines, Reading.ofLine_eq (.blank h)]
  | cons first before ih =>
    rw [List.cons_append, List.cons_append, serveLines, serveLines]
    cases Reading.ofLine first <;> simp only [ih]

/-- `serveLines` answers the calls of `Asked` lines as long as the sink takes the answers. -/
theorem serveLines_asked {before : List (List UInt8)} {envelopes : List Envelope}
    (h : Asked before envelopes) (served : Nat) (htakes : sink.Takes (served + envelopes.length))
    (rest : List (List UInt8)) :
    let service := serveLines registry sink served (before ++ rest)
    let later := serveLines registry sink (served + envelopes.length) rest
    service.responses = envelopes.map registry.invoke ++ later.responses ∧
      service.result = later.result := by
  induction h generalizing served with
  | nil => exact ⟨rfl, rfl⟩
  | blank h _ ih =>
    have hrest := ih served htakes
    rw [List.cons_append, serveLines, Reading.ofLine_eq (.blank h)]
    exact hrest
  | @call line lines envelope envelopes h _ ih =>
    have hlength : served + (envelope :: envelopes).length = served + 1 + envelopes.length := by
      rw [List.length_cons]
      omega
    rw [hlength] at htakes ⊢
    obtain ⟨hresponses, hresult⟩ := ih (served + 1) htakes
    -- if all answers are taken, the first one is
    have hfits : sink.Takes (served + 1) := fun capacity hcapacity =>
      Nat.le_trans (Nat.le_add_right ..) (htakes capacity hcapacity)
    rw [List.cons_append, serveLines, Reading.ofLine_eq (.call h)]
    dsimp only
    rw [if_neg (Sink.takes_succ_iff.mp hfits), hresponses, hresult]
    exact ⟨rfl, rfl⟩

/-- Where the worker `Stops`, `serveLines` gives no further response. -/
theorem serveLines_stops {served : Nat} {rest : List (List UInt8)}
    {result : Except ServeError Nat} (h : Stops sink served rest result) :
    (serveLines registry sink served rest).responses = [] ∧
      (serveLines registry sink served rest).result = result := by
  cases h with
  | inputEnds => exact ⟨rfl, rfl⟩
  | shutdown h =>
    rw [serveLines, Reading.ofLine_eq (.shutdown h)]
    exact ⟨rfl, rfl⟩
  | unreadable h =>
    rw [serveLines, Reading.ofLine_eq (.unreadable h)]
    exact ⟨rfl, rfl⟩
  | malformed h =>
    rw [serveLines, Reading.ofLine_eq (.malformed h)]
    exact ⟨rfl, rfl⟩
  | unwritable h hsink =>
    rw [serveLines, Reading.ofLine_eq (.call h)]
    dsimp only
    rw [if_pos (Decidable.not_not.mp (mt Sink.takes_succ_iff.mpr hsink))]
    exact ⟨rfl, rfl⟩

/-- Every list of lines splits into `Asked` lines and a rest at which the worker `Stops`. -/
theorem exists_asked (sink : Sink) (lines : List (List UInt8)) (served : Nat)
    (htakes : sink.Takes served) : ∃ before rest envelopes result, lines = before ++ rest ∧
      Asked before envelopes ∧ sink.Takes (served + envelopes.length) ∧
      Stops sink (served + envelopes.length) rest result := by
  induction lines generalizing served with
  | nil => exact ⟨[], [], [], _, rfl, .nil, htakes, .inputEnds⟩
  | cons line lines ih =>
    have hstop {result : Except ServeError Nat} (h : Stops sink served (line :: lines) result) :
        ∃ before rest envelopes result, line :: lines = before ++ rest ∧
          Asked before envelopes ∧ sink.Takes (served + envelopes.length) ∧
          Stops sink (served + envelopes.length) rest result :=
      ⟨[], line :: lines, [], result, rfl, .nil, htakes, h⟩
    -- what the line is decides whether it is passed or stops the worker
    have hline := Reading.describes_ofLine line
    generalize Reading.ofLine line = reading at hline
    cases hline with
    | blank h =>
      obtain ⟨before, rest, envelopes, result, rfl, hasked, htakes, hstops⟩ := ih served htakes
      exact ⟨line :: before, rest, envelopes, result, rfl, .blank h hasked, htakes, hstops⟩
    | @call envelope h =>
      by_cases hsink : sink.Takes (served + 1)
      · obtain ⟨before, rest, envelopes, result, rfl, hasked, htakes, hstops⟩ :=
          ih (served + 1) hsink
        rw [Nat.add_right_comm] at htakes hstops
        exact ⟨line :: before, rest, envelope :: envelopes, result, rfl, .call h hasked, htakes,
          hstops⟩
      · exact hstop (.unwritable h hsink)
    | shutdown h => exact hstop (.shutdown h)
    | malformed h => exact hstop (.malformed h)
    | unreadable h => exact hstop (.unreadable h)

/-- The responses and the result of `serveLines` on `Asked` lines followed by a rest at which the
worker `Stops`. -/
theorem serveLines_eq {before rest : List (List UInt8)} {envelopes : List Envelope}
    {result : Except ServeError Nat} (hasked : Asked before envelopes)
    (htakes : sink.Takes envelopes.length) (hstops : Stops sink envelopes.length rest result) :
    (serveLines registry sink 0 (before ++ rest)).responses = envelopes.map registry.invoke ∧
      (serveLines registry sink 0 (before ++ rest)).result = result := by
  have hlength : 0 + envelopes.length = envelopes.length := Nat.zero_add _
  obtain ⟨hresponses, hresult⟩ := serveLines_asked registry hasked 0
    (hlength.symm ▸ htakes) rest
  rw [hlength] at hresponses hresult
  obtain ⟨hnone, hstop⟩ := serveLines_stops registry hstops
  rw [hresponses, hresult, hnone, List.append_nil]
  exact ⟨rfl, hstop⟩

/-- `Serves` determines the responses, the bytes and the result of `serveLines`. -/
theorem serves_iff {lines : List (List UInt8)} {responses : List Response}
    {bytes : List UInt8} {result : Except ServeError Nat} :
    Serves registry sink lines responses bytes result ↔
      (serveLines registry sink 0 lines).responses = responses ∧
        (serveLines registry sink 0 lines).written = bytes ∧
        (serveLines registry sink 0 lines).result = result := by
  constructor
  · rintro ⟨before, rest, envelopes, rfl, hasked, htakes, hstops, rfl, rfl⟩
    obtain ⟨hresponses, hresult⟩ := serveLines_eq registry hasked htakes hstops
    rw [written, hresponses, List.flatMap_map]
    exact ⟨rfl, rfl, hresult⟩
  · rintro ⟨rfl, rfl, rfl⟩
    obtain ⟨before, rest, envelopes, result, rfl, hasked, htakes, hstops⟩ :=
      exists_asked sink lines 0 fun _ _ => Nat.zero_le _
    rw [Nat.zero_add] at htakes hstops
    obtain ⟨hresponses, hresult⟩ := serveLines_eq registry hasked htakes hstops
    rw [written, hresponses, hresult, List.flatMap_map]
    exact ⟨before, rest, envelopes, rfl, hasked, htakes, hstops, rfl, rfl⟩

/-- `serveLines` ignores everything behind the line at which the worker `Stops`. -/
theorem serveLines_append {before after : List (List UInt8)} {line : List UInt8}
    {envelopes : List Envelope} {result : Except ServeError Nat} (hasked : Asked before envelopes)
    (served : Nat) (htakes : sink.Takes (served + envelopes.length))
    (hstops : Stops sink (served + envelopes.length) (line :: after) result)
    (more : List (List UInt8)) :
    serveLines registry sink served (before ++ line :: after ++ more) =
      serveLines registry sink served (before ++ line :: after) := by
  induction hasked generalizing served with
  | nil =>
    rw [List.nil_append, List.cons_append, serveLines, serveLines]
    -- whatever stops the worker does so before it looks at a further line
    cases hstops with
    | shutdown h => rw [Reading.ofLine_eq (.shutdown h)]
    | unreadable h => rw [Reading.ofLine_eq (.unreadable h)]
    | malformed h => rw [Reading.ofLine_eq (.malformed h)]
    | unwritable h hsink =>
      rw [Reading.ofLine_eq (.call h)]
      dsimp only
      have hfull := Decidable.not_not.mp (mt Sink.takes_succ_iff.mpr hsink)
      rw [List.length_nil, Nat.add_zero] at hfull
      rw [if_pos hfull, if_pos hfull]
  | blank h _ ih =>
    have hrest := ih served htakes hstops
    rw [List.cons_append, List.cons_append, serveLines, serveLines, Reading.ofLine_eq (.blank h)]
    exact hrest
  | @call _ _ envelope envelopes h _ ih =>
    have hlength : served + (envelope :: envelopes).length = served + 1 + envelopes.length := by
      rw [List.length_cons]
      omega
    rw [hlength] at htakes hstops
    have hrest := ih (served + 1) htakes hstops
    rw [List.cons_append, List.cons_append, serveLines, serveLines, Reading.ofLine_eq (.call h)]
    dsimp only
    rw [hrest]

/-- Appending lines only appends responses. -/
theorem responses_prefix (served : Nat) (lines more : List (List UInt8)) :
    (serveLines registry sink served lines).responses <+:
      (serveLines registry sink served (lines ++ more)).responses := by
  induction lines generalizing served with
  | nil => exact List.nil_prefix
  | cons line lines ih =>
    rw [List.cons_append, serveLines, serveLines]
    cases Reading.ofLine line with
    | blank => exact ih served
    | shutdown => exact List.nil_prefix
    | error e => exact List.nil_prefix
    | call envelope =>
      dsimp only
      split
      · exact List.nil_prefix
      · exact List.prefix_cons_inj _ |>.mpr (ih (served + 1))

end Service

namespace Registry

open Service

/-- `Registry.serve` is the relation `Cut` followed by `Serves`, for every byte string and every
sink: it answers the calls before the first stop, in order, one line each, and ends with their
number, with invalid data or with the failure of the sink. Blank lines and everything behind the
stop are ignored, and the answers to `Whole` bytes are a prefix of the answers to any extension. -/
theorem serve_reference (registry : Registry) (sink : Sink) :
    (∀ input responses bytes result,
      (∃ lines, Cut input lines ∧ Serves registry sink lines responses bytes result) ↔
        (registry.serve sink input).responses = responses ∧
          (registry.serve sink input).written = bytes ∧
          (registry.serve sink input).result = result) ∧
    (∀ input n, (registry.serve sink input).result = .ok n →
      n = (registry.serve sink input).responses.length) ∧
    (∀ input e, (registry.serve sink input).result = .error e →
      e.kind = .invalidData ∨ e = .io sink.failure) ∧
    (∀ input input' before line after, Blank line → Cut input (before ++ line :: after) →
      Cut input' (before ++ after) → registry.serve sink input = registry.serve sink input') ∧
    (∀ head tail before line after envelopes result, Whole head →
      Cut head (before ++ line :: after) → Asked before envelopes → sink.Takes envelopes.length →
      Stops sink envelopes.length (line :: after) result →
      registry.serve sink (head ++ tail) = registry.serve sink head) ∧
    ∀ head tail, Whole head →
      (registry.serve sink head).responses <+: (registry.serve sink (head ++ tail)).responses := by
  have hserves (input : List UInt8) : Serves registry sink (lines input)
      (registry.serve sink input).responses (registry.serve sink input).written
      (registry.serve sink input).result := (serves_iff registry).mpr ⟨rfl, rfl, rfl⟩
  refine ⟨fun input responses bytes result => ⟨?_, ?_⟩, fun input n hn => ?_,
    fun input e he => ?_, fun input input' before line after hblank hcut hcut' => ?_,
    fun head tail before line after envelopes result hwhole hcut hasked htakes hstops => ?_,
    fun head tail hwhole => ?_⟩
  · rintro ⟨lines, hcut, h⟩
    rw [← lines_of_cut hcut] at h
    exact (serves_iff registry).mp h
  · rintro ⟨rfl, rfl, rfl⟩
    exact ⟨lines input, cut_lines input, hserves input⟩
  · obtain ⟨_, _, envelopes, -, -, -, hstops, hresponses, -⟩ := hserves input
    rw [hn] at hstops
    rw [hresponses, List.length_map]
    cases hstops <;> rfl
  · obtain ⟨_, _, envelopes, -, -, -, hstops, -⟩ := hserves input
    rw [he] at hstops
    cases hstops with
    | unreadable => exact .inl rfl
    | malformed => exact .inl rfl
    | unwritable => exact .inr rfl
  · rw [serve, serve, lines_of_cut hcut, lines_of_cut hcut', serveLines_blank registry hblank]
  · have hmore := serveLines_append registry hasked 0 (by rwa [Nat.zero_add])
      (by rwa [Nat.zero_add]) (lines tail)
    rw [serve, serve, lines_of_cut (hcut.append hwhole tail), lines_of_cut hcut, hmore]
  · have hcut := (cut_lines head).append hwhole tail
    rw [serve, serve, lines_of_cut hcut]
    exact responses_prefix registry 0 (lines head) (lines tail)

/-- A call and a shutdown request, with garbage behind them, get one answer. -/
theorem serve_reference_until_shutdown :
    let call : Envelope := ⟨3, "square", ⟨[0x90]⟩, ⟨[4]⟩⟩
    let head := Request.bytes [.call call, .shutdown]
    let service := Registry.builtin.serve .unlimited (head ++ [0xFF, 10])
    service.responses = [.completed 3 ⟨[16]⟩] ∧ service.result = .ok 1 := by
  intro call head service
  obtain ⟨hiff, -, -, -, hbehind, -⟩ := serve_reference .builtin .unlimited
  have hcall := (Request.call call).says_compact
  have hshutdown := Request.shutdown.says_compact
  have hcut : Cut head [_, _] := cut_iff.mpr (lines_bytes [.call call, .shutdown])
  have hwhole : Whole head := by
    have hbytes : head = _ := Request.bytes_eq _
    rw [hbytes]
    exact whole_flatMap _
  have htakes (count : Nat) : Sink.unlimited.Takes count := fun _ h => by cases h
  have hasked : Asked [_] [call] := .call hcall .nil
  have hserve : service = _ :=
    hbehind head [0xFF, 10] _ _ [] _ _ hwhole hcut hasked (htakes 1) (.shutdown hshutdown)
  obtain ⟨hresponses, -, hresult⟩ := (hiff head _ _ _).mp
    ⟨_, hcut, [_], [_], [call], rfl, hasked, htakes 1, .shutdown hshutdown, rfl, rfl⟩
  rw [hserve]
  exact ⟨hresponses, hresult⟩

end Registry

end Fanout
