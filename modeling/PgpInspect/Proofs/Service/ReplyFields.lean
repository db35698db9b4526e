import PgpInspect.Proofs.Http.Headers
import PgpInspect.Service

/-!
# The fields that all replies have

Every reply carries the identifier of its request and says whether scripts of another origin may
read it, on whatever way it came about: found or not found, too large, refused, failed, or asked
about what may be requested. The routes know of these fields only the identifier that they put into
the bodies of replies about faults, and the type of a body is the only field that they set
(`Service.IsRouted`, one lemma for each way a reply is made). The layers around the routes add the
others, and none of them takes out what another one has added (`Service.respond_hasReplyFields`).
-/

namespace PgpInspect.Service

open Http
open Http.Headers (nameKey setAll_append get?_setAll_of_ne get?_setAll_append_cons)

/-! ## Replies of the routes -/

/-- A reply before the fields of all replies are added: its only field is the type of its body, and
an identifier in its body is that of the request. -/
structure IsRouted (requestId : String) (reply : Reply) : Prop where
  /-- The only field is the type of the body. -/
  headers_eq : ∃ mediaType, reply.response.headers = [("content-type", mediaType)]
  /-- An identifier in the body is that of the request. -/
  identifier_eq : ∀ body ∈ reply.response.body, ∀ value ∈ body.get? "requestId",
    value = .string requestId

variable {requestId : String}

/-- A reply with a JSON object is routed if an identifier in it is that of the request. -/
theorem isRouted_ofJson {members : Members}
    (h : members.get? "requestId" = none ∨
      members.get? "requestId" = some (.string requestId))
    (status : Binary64) (entries : List LogEntry) :
    IsRouted requestId ⟨.ofJson status (.object members), entries⟩ := by
  refine ⟨⟨_, rfl⟩, ?_⟩
  rintro _ ⟨⟩ value hvalue
  have hmember : members.get? "requestId" = some value := hvalue
  rcases h with h | h
  · rw [h] at hmember
    cases hmember
  · rw [h] at hmember
    exact (Option.some.inj hmember).symm

/-- A reply about a fault tells the identifier of the request. -/
theorem isRouted_make (message code : String) (status : Binary64) (context : Option Members)
    (entries : List LogEntry) :
    IsRouted requestId
      ⟨.ofJson status (ErrorReply.make message code status (some requestId) context).body,
        entries⟩ := by
  refine isRouted_ofJson ?_ status entries
  -- An empty identifier is left out.
  cases hempty : requestId.isEmpty with
  | true =>
    have hidentifier : ErrorReply.identifierMember (some requestId) = [] := by
      rw [ErrorReply.identifierMember, Option.filter, hempty]
      rfl
    rw [hidentifier]
    exact .inl rfl
  | false =>
    have hidentifier : ErrorReply.identifierMember (some requestId) =
        [("requestId", .string requestId)] := by
      rw [ErrorReply.identifierMember, Option.filter, hempty]
      rfl
    rw [hidentifier]
    exact .inr rfl

/-- A reply about what was not foreseen is routed. -/
theorem isRouted_failed (message : String) : IsRouted requestId (failed requestId message) :=
  isRouted_make "Internal server error" "INTERNAL_ERROR" 500 none _

/-- So is a reply about a body that is refused. -/
theorem isRouted_refusedBody (refusal : BodyRefusal) :
    IsRouted requestId (refusedBody requestId refusal) := by
  cases refusal with
  | unsupportedMediaType => exact isRouted_failed "Unsupported Media Type"
  | malformedJson => exact isRouted_failed "Malformed JSON in request body"
  | invalid issues => exact isRouted_ofJson (.inl rfl) 400 []

/-- So is a reply about key data. -/
theorem isRouted_inspect (done action : String) (data : KeyData) (options : InspectOptions) :
    IsRouted requestId (inspect requestId done action data options) :=
  isRouted_ofJson (.inl rfl) 200 _

/-- So is a reply to a request that cannot be inspected. -/
theorem isRouted_refuse (code message : String) (entries : List LogEntry) :
    IsRouted requestId ⟨refuse requestId code message, entries⟩ :=
  isRouted_ofJson (.inr rfl) 400 entries

/-- An operation that takes a body is routed if its reply to an admitted one is. -/
theorem isRouted_withBody {reply : Json → Reply} (h : ∀ body, IsRouted requestId (reply body))
    (schema : Schema) (request : Request) :
    IsRouted requestId (withBody schema requestId request reply) := by
  unfold withBody
  split
  · next body _ => exact h body
  · next refusal _ => exact isRouted_refusedBody refusal

/-- Every operation gives a routed reply. -/
theorem isRouted_perform (surroundings : Surroundings) (request : Request) (operation : Operation) :
    IsRouted requestId (perform surroundings requestId request operation) := by
  cases operation with
  | health => exact isRouted_ofJson (.inl rfl) 200 []
  | apiDescription => exact ⟨⟨_, rfl⟩, nofun⟩
  | documentation => exact ⟨⟨_, rfl⟩, nofun⟩
  | inspectKey =>
    refine isRouted_withBody (fun body => ?_) _ request
    unfold InspectKeyRequest.reply
    split
    · exact isRouted_inspect _ _ _ _
    · exact isRouted_refuse _ _ _
  | inspectAutocrypt =>
    refine isRouted_withBody (fun body => ?_) _ request
    unfold InspectAutocryptRequest.reply
    split
    · exact isRouted_inspect _ _ _ _
    · exact isRouted_refuse _ _ _

/-- So does every request, also one that is too large or names no operation. -/
theorem isRouted_route (config : Config) (surroundings : Surroundings) (request : Request) :
    IsRouted requestId (route config surroundings requestId request) := by
  unfold route
  dsimp only
  split
  · exact isRouted_make "Key data too large" "PAYLOAD_TOO_LARGE" 413 _ _
  · split
    · next operation _ => exact isRouted_perform surroundings request operation
    · exact isRouted_ofJson (.inl rfl) 404 []

/-! ## The fields around the routes -/

variable {config : Config} {request : Request}

/-- An origin is admitted if the request states it and the configuration lists it, or lists none. -/
theorem admittedOrigin?_eq_some_iff {origin : String} :
    admittedOrigin? config request = some origin ↔
      request.headers.get? "Origin" = some origin ∧
        (config.allowedOrigins = [] ∨ origin ∈ config.allowedOrigins) := by
  simp [admittedOrigin?, Option.filter_eq_some_iff]

/-- Where no field about access is set yet, the one that is set tells the admitted origin. -/
theorem get?_accessFields {headers : Headers}
    (h : headers.get? "Access-Control-Allow-Origin" = none) :
    (headers.setAll (accessFields config request)).get? "Access-Control-Allow-Origin" =
      admittedOrigin? config request := by
  unfold accessFields
  cases admittedOrigin? config request with
  | none => exact h
  | some origin => exact get?_setAll_append_cons (by decide) [] headers

/-- So does the one in the reply about what may be requested. -/
theorem get?_preflightFields :
    (Headers.setAll [] (preflightFields config request)).get? "Access-Control-Allow-Origin" =
      admittedOrigin? config request := by
  unfold preflightFields
  cases admittedOrigin? config request with
  | none => rfl
  | some origin => exact get?_setAll_append_cons (by decide) [] []

/-- Every answer tells the origin that is admitted, and no other. -/
theorem get?_answer (surroundings : Surroundings) :
    (answer config surroundings requestId request).response.headers.get?
      "Access-Control-Allow-Origin" = admittedOrigin? config request := by
  unfold answer
  split
  · exact get?_preflightFields
  · -- The only field of the route is another one.
    have hrouted : IsRouted requestId (route config surroundings requestId request) :=
      isRouted_route config surroundings request
    obtain ⟨mediaType, hheaders⟩ := hrouted.headers_eq
    refine get?_accessFields ?_
    rw [hheaders]
    rfl

/-- An identifier in the body of an answer is that of the request. -/
theorem identifier_answer (surroundings : Surroundings) :
    ∀ body ∈ (answer config surroundings requestId request).response.body,
      ∀ value ∈ body.get? "requestId", value = .string requestId := by
  unfold answer
  split
  · -- What may be requested is told without a body.
    exact nofun
  · exact (isRouted_route config surroundings request).identifier_eq

/-- The fields that are set around an answer leave the one about access alone. -/
theorem get?_aroundAnswer (headers : Headers) :
    (headers.setAll (safetyFields request ++ [(requestIdField, requestId)])).get?
      "Access-Control-Allow-Origin" = headers.get? "Access-Control-Allow-Origin" := by
  have hsafety : ∀ field ∈ safetyFields request,
      nameKey field.1 ≠ nameKey "Access-Control-Allow-Origin" := by
    unfold safetyFields
    -- There is one field more where the documentation is not asked for.
    split
    all_goals decide
  have hidentifier : ∀ field ∈ [(requestIdField, requestId)],
      nameKey field.1 ≠ nameKey "Access-Control-Allow-Origin" := by
    rw [List.forall_mem_singleton]
    show nameKey requestIdField ≠ nameKey "Access-Control-Allow-Origin"
    decide
  refine get?_setAll_of_ne ?_ headers
  rw [List.forall_mem_append]
  exact ⟨hsafety, hidentifier⟩

/-- They end with the field that tells the identifier. -/
theorem get?_identifierField (headers : Headers) :
    (headers.setAll (safetyFields request ++ [(requestIdField, requestId)])).get? "X-Request-ID" =
      some requestId :=
  get?_setAll_append_cons (List.forall_mem_nil _) (safetyFields request) headers

/-! ## All replies -/

/-- What holds of the reply to a request with an identifier, on whatever way it came about. -/
structure HasReplyFields (config : Config) (surroundings : Surroundings) (request : Request)
    (requestId : String) (reply : Reply) : Prop where
  /-- The identifier is the one that the request brings along, unless that is empty. -/
  brought : ∀ identifier, request.headers.get? "X-Request-ID" = some identifier →
    identifier ≠ "" → requestId = identifier
  /-- A request that brings none along, or an empty one, has the fresh identifier. -/
  fresh : (∀ identifier, request.headers.get? "X-Request-ID" = some identifier →
    identifier = "") → requestId = surroundings.requestId
  /-- The reply tells the identifier in a field. -/
  identifier_field : reply.response.headers.get? "X-Request-ID" = some requestId
  /-- A body that tells an identifier tells the same. -/
  identifier_member : ∀ body, reply.response.body = some body →
    ∀ value, body.get? "requestId" = some value → value = .string requestId
  /-- The scripts of an origin may read the reply exactly if the request comes from there and the
  configuration lists the origin, or lists none. -/
  access_field : ∀ origin,
    reply.response.headers.get? "Access-Control-Allow-Origin" = some origin ↔
      request.headers.get? "Origin" = some origin ∧
        (config.allowedOrigins = [] ∨ origin ∈ config.allowedOrigins)
  /-- What may be requested is told without content and without asking a route. -/
  preflight_eq : request.method = "OPTIONS" →
    reply =
      ⟨⟨204, Headers.setAll [] (preflightFields config request ++ safetyFields request ++
          [("X-Request-ID", requestId)]), none⟩,
        [arrivalEntry request, departureEntry request 204 surroundings.elapsed]⟩

/-- The identifier that is chosen is the one brought along, unless that is empty. -/
theorem chooseRequestId_of_ne {identifier : String} (h : identifier ≠ "") (fresh : String) :
    chooseRequestId (some identifier) fresh = identifier := by
  have hempty : identifier.isEmpty = false := by simpa using h
  rw [chooseRequestId, hempty, if_neg Bool.false_ne_true]

/-- Otherwise it is the fresh one. -/
theorem chooseRequestId_of_forall {brought : Option String}
    (h : ∀ identifier, brought = some identifier → identifier = "") (fresh : String) :
    chooseRequestId brought fresh = fresh := by
  cases brought with
  | none => rfl
  | some identifier =>
    rw [h identifier rfl]
    rfl

/-- A reply is the answer under the chosen identifier, with the fields around it. -/
theorem respond_eq {surroundings : Surroundings} {answered : Reply}
    (h : chooseRequestId (request.headers.get? requestIdField) surroundings.requestId = requestId)
    (hanswer : answer config surroundings requestId request = answered) :
    respond config surroundings request =
      { response :=
          { status := answered.response.status
            headers := answered.response.headers.setAll
              (safetyFields request ++ [(requestIdField, requestId)])
            body := if request.method = "HEAD" then none else answered.response.body }
        entries := arrivalEntry request :: answered.entries ++
          [departureEntry request answered.response.status surroundings.elapsed] } := by
  subst h hanswer
  rfl

/-- Every reply has the fields of all replies. -/
theorem respond_hasReplyFields (config : Config) (surroundings : Surroundings) (request : Request) :
    ∃ requestId, HasReplyFields config surroundings request requestId
      (respond config surroundings request) := by
  obtain ⟨requestId, hchosen⟩ : ∃ requestId,
      chooseRequestId (request.headers.get? requestIdField) surroundings.requestId =
        requestId := ⟨_, rfl⟩
  -- The identifier and the answer are named, so that their computations stay folded.
  obtain ⟨answered, hanswer⟩ : ∃ answered,
      answer config surroundings requestId request = answered := ⟨_, rfl⟩
  refine ⟨requestId, ?_⟩
  rw [respond_eq hchosen hanswer]
  constructor
  case brought =>
    intro identifier hbrought hne
    have hfield : request.headers.get? requestIdField = some identifier := hbrought
    rw [← hchosen, hfield, chooseRequestId_of_ne hne]
  case fresh =>
    intro hnone
    rw [← hchosen]
    exact chooseRequestId_of_forall hnone surroundings.requestId
  case identifier_field => rw [get?_identifierField]
  case identifier_member =>
    intro body hbody
    -- The reply to `HEAD` has no body.
    have hanswered : answered.response.body = some body := by
      dsimp only at hbody
      split at hbody
      · cases hbody
      · exact hbody
    rw [← hanswer] at hanswered
    exact identifier_answer surroundings body hanswered
  case access_field =>
    intro origin
    rw [get?_aroundAnswer, ← hanswer, get?_answer, admittedOrigin?_eq_some_iff]
  case preflight_eq =>
    intro hmethod
    have hpreflight : answered = quiet (preflight config request) := by
      rw [← hanswer, answer, if_pos hmethod]
    have hfields : Headers.setAll [] (preflightFields config request ++ safetyFields request ++
        [("X-Request-ID", requestId)]) =
          (Headers.setAll [] (preflightFields config request)).setAll
            (safetyFields request ++ [(requestIdField, requestId)]) := by
      rw [List.append_assoc]
      exact setAll_append [] _ _
    rw [hpreflight, hfields]
    simp only [quiet, preflight, ite_self, List.cons_append, List.nil_append]

end PgpInspect.Service
