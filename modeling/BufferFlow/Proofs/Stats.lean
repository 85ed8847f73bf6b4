import BufferFlow.Proofs.Http
import BufferFlow.Proofs.Json.Writing
import BufferFlow.Proofs.Text.Words
import BufferFlow.Stats

set_option autoImplicit false

namespace BufferFlow.Stats

open Text

/-- The second word of the first line is the known path. -/
def AsksForStats (request : List UInt8) : Prop :=
  ∃ text line words, Utf8.Lossy request text ∧ FirstLine text line ∧ Spaced line words ∧
    words[1]? = some "/stats".toList

theorem path_eq_iff {line : List Char} :
    path line = "/stats" ↔ (Text.words line)[1]? = some "/stats".toList := by
  rw [path]
  cases (Text.words line)[1]? with
  | none => simp
  | some word =>
    change String.ofList word = "/stats" ↔ _
    rw [Option.some_inj, ← String.toList_inj, String.toList_ofList]

theorem asksForStats_iff {request : List UInt8} :
    AsksForStats request ↔ path (firstLine (Utf8.decodeLossy request)) = "/stats" := by
  rw [path_eq_iff]
  constructor
  · rintro ⟨text, line, words, lossy, first, spaced, second⟩
    rwa [Utf8.decodeLossy_eq_iff.2 lossy, first.firstLine_eq, spaced.words_eq]
  · exact fun second => ⟨_, _, _, Utf8.lossy_decodeLossy request, firstLine_eq_iff.1 rfl,
      words_eq_iff.1 rfl, second⟩

def members (c : Counters) : List (Option String × Json) :=
  [(some "version", .string (some "0.1.0")),
    (some "buffers_acquired", .integer c.buffersAcquired.toNat),
    (some "buffers_recycled", .integer c.buffersRecycled.toNat),
    (some "publishes", .integer c.publishes.toNat),
    (some "deliveries", .integer c.deliveries.toNat),
    (some "empty_publishes", .integer c.emptyPublishes.toNat),
    (some "subscriptions_opened", .integer c.subscriptionsOpened.toNat),
    (some "subscriptions_active", .integer c.subscriptionsActive.toNat),
    (some "joins_completed", .integer c.joinsCompleted.toNat),
    (some "joins_failed", .integer c.joinsFailed.toNat),
    (some "stages_started", .integer c.stagesStarted.toNat),
    (some "stages_running", .integer c.stagesRunning.toNat),
    (some "stages_terminated", .integer c.stagesTerminated.toNat),
    (some "buffers_in_flight", .integer (max 0 ((c.buffersAcquired.toNat : Int) - c.buffersRecycled.toNat)))]

theorem toNat_inFlight (c : Counters) :
    (c.inFlight.toNat : Int) = max 0 ((c.buffersAcquired.toNat : Int) - c.buffersRecycled.toNat) := by
  rw [Counters.inFlight]
  split_ifs with within
  · rw [UInt64.toNat_sub_of_le _ _ within]
    have := UInt64.le_iff_toNat_le.1 within
    omega
  · have := mt UInt64.le_iff_toNat_le.2 within
    simp only [UInt64.toNat_zero]
    omega

theorem body_eq (c : Counters) : body c = .object (members c) := by
  rw [members, ← toNat_inFlight]
  rfl

theorem parse?_body (c : Counters) : Json.parse? (body c).pretty = some (.object (members c)) := by
  rw [← body_eq]
  apply Json.parse?_pretty
  simp [body_eq, members, Json.Plain, Json.PlainMembers]

def Status.code : Status → Nat
  | .ok => 200
  | .notFound => 404

def Status.reason : Status → String
  | .ok => "OK"
  | .notFound => "Not Found"

def answer (status : Status) (body : List UInt8) : Http.Response where
  status := status.code
  reason := Utf8.bytes status.reason
  fields := [(Utf8.bytes "Content-Type", Utf8.bytes "application/json"),
    (Utf8.bytes "Content-Length", Utf8.bytes (toString body.length)),
    (Utf8.bytes "Connection", Utf8.bytes "close")]
  body := body

theorem answer_body (status : Status) (body : List UInt8) : (answer status body).body = body := rfl

theorem bytes_line (status : Status) :
    Utf8.bytes status.line = Http.statusDigits status.code ++ 32 :: Utf8.bytes status.reason := by
  cases status <;> decide

theorem bytes_response (status : Status) (body : String) :
    Utf8.bytes (response status body) = (answer status (Utf8.bytes body)).bytes := by
  have kind : Utf8.bytes "\r\nContent-Type: application/json\r\n" = Http.lineEnd ++
      Http.fieldLine (Utf8.bytes "Content-Type", Utf8.bytes "application/json") := by decide
  have length : Utf8.bytes "Content-Length: " = Utf8.bytes "Content-Length" ++ [58, 32] := by decide
  have connection : Utf8.bytes "\r\nConnection: close\r\n\r\n" = Http.lineEnd ++
      (Http.fieldLine (Utf8.bytes "Connection", Utf8.bytes "close") ++ Http.lineEnd) := by decide
  simp only [response, toString, Utf8.bytes_append, bytes_line, kind, length, connection, answer,
    Http.Response.bytes, Utf8.length_bytes, List.flatMap_cons, List.flatMap_nil]
  simp [Http.fieldLine]

theorem Status.code_range (status : Status) : 100 ≤ status.code ∧ status.code < 600 := by
  cases status <;> decide

theorem Status.isText_reason (status : Status) : (Utf8.bytes status.reason).all Http.isText := by
  cases status <;> decide

theorem answer_wellFormed (status : Status) (body : List UInt8) : (answer status body).WellFormed where
  status := status.code_range
  reason := status.isText_reason
  fields := by
    simp only [answer, List.forall_mem_cons]
    exact ⟨.of_visible (by decide) (by decide) (by decide),
      .of_visible (by decide) (by decide) (Http.isVisible_digits _),
      .of_visible (by decide) (by decide) (by decide), by simp⟩
  length := rfl
  plain := rfl

theorem route_cases (c : Counters) (request : List UInt8) :
    ∃ status text, route (firstLine (Utf8.decodeLossy request)) c = (status, text) ∧
      (status = .ok ∧ AsksForStats request ∧ text = (body c).pretty ∨
        status = .notFound ∧ ¬ AsksForStats request) := by
  rw [asksForStats_iff, route]
  split_ifs with asked
  · exact ⟨.ok, _, rfl, .inl ⟨rfl, eq_of_beq asked, rfl⟩⟩
  · exact ⟨.notFound, _, rfl, .inr ⟨rfl, fun path => asked (beq_iff_eq.2 path)⟩⟩

theorem respond_eq (c : Counters) {request : List UInt8} (nonempty : request ≠ [])
    (once : request.length ≤ readLimit) {status : Status} {text : String}
    (routed : route (firstLine (Utf8.decodeLossy request)) c = (status, text)) :
    respond c request = response status text := by
  have whole : request.take readLimit = request := List.take_of_length_le once
  simp only [respond, List.isEmpty_iff, nonempty, if_false, whole, routed]

/-- The answer to any bytes of one read is a single well-formed response, whose only length is that
of its body. The status is 200 with the object of the statistics where the second word of the first
line is the known path, and 404 everywhere else. -/
theorem respond_wellFormed (c : Counters) (request : List UInt8) (nonempty : request ≠ [])
    (once : request.length ≤ 1024) : ∃ r : Http.Response,
      (r.WellFormed ∧ r.bytes = Utf8.bytes (respond c request)) ∧
      (∀ r' : Http.Response, r'.WellFormed → r'.bytes = Utf8.bytes (respond c request) → r' = r) ∧
      r.values "content-length" = [Utf8.bytes (toString r.body.length)] ∧
      (r.status = 200 ∨ r.status = 404) ∧ (r.status = 200 ↔ AsksForStats request) ∧
      (r.status = 200 → ∃ text, r.body = Utf8.bytes text ∧
        Json.parse? text = some (.object (members c))) := by
  obtain ⟨status, text, routed, outcome⟩ := route_cases c request
  have formed := answer_wellFormed status (Utf8.bytes text)
  have same : Utf8.bytes (respond c request) = (answer status (Utf8.bytes text)).bytes := by
    rw [respond_eq c nonempty once routed, bytes_response]
  refine ⟨answer status (Utf8.bytes text), ⟨formed, same.symm⟩,
    fun r' formed' same' => Http.Response.bytes_inj formed' formed (same'.trans same), formed.length, ?_⟩
  obtain ⟨rfl, asked, rfl⟩ | ⟨rfl, asked⟩ := outcome
  · exact ⟨.inl rfl, iff_of_true rfl asked, fun _ => ⟨_, answer_body .., parse?_body c⟩⟩
  · have other : Status.notFound.code ≠ 200 := by decide
    exact ⟨.inr rfl, iff_of_false other asked, fun ok => absurd ok other⟩

theorem respond_wellFormed_get : ∃ r : Http.Response,
    r.bytes = Utf8.bytes (respond {} (Utf8.bytes "GET /stats HTTP/1.1\r\n")) ∧ r.WellFormed ∧
      r.status = 200 ∧ ∃ text, r.body = Utf8.bytes text ∧
        Json.parse? text = some (.object (members {})) := by
  obtain ⟨r, ⟨formed, same⟩, -, -, -, status, body⟩ :=
    respond_wellFormed {} (Utf8.bytes "GET /stats HTTP/1.1\r\n") (by decide) (by decide)
  have asks : AsksForStats (Utf8.bytes "GET /stats HTTP/1.1\r\n") := by
    rw [asksForStats_iff, Utf8.decodeLossy_bytes]
    decide
  exact ⟨r, same, formed, status.2 asks, body (status.2 asks)⟩

end BufferFlow.Stats
