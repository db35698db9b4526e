import PgpInspect.Proofs.Service.Routes

/-!
# The statuses of posted requests

The operations that inspect keys declare the statuses of their replies: 200, 400 and 413. A request
that posts JSON to one of them, as it says, is answered with one of these, whatever the body and the
header fields hold, except if nothing is wrong with it but that its body is not JSON at all
(`Service.IsMalformed`): that is taken for a failure of the service, and has the status 500
(`Service.declared_status_iff`).

The proof follows a request inwards. The limit is checked first, then the schema of the header
fields, then the body is read, then its schema is checked, and what an operation does with an
admitted body always comes to a reply.
-/

namespace PgpInspect

namespace Schema

/-- A text of too many characters has one issue. -/
theorem validate_atMost_of_lt {maximum : Nat} {value : String} (h : maximum < value.length)
    (path : Path) : (text [.atMost maximum]).validate path (some (.string value)) =
      .error [Issue.general path (.tooLong maximum)] := by
  have hissues : [TextCheck.atMost maximum].flatMap (TextCheck.issues path value) =
      [Issue.general path (.tooLong maximum)] := by
    rw [List.flatMap_singleton, TextCheck.issues, if_neg (Nat.not_le_of_lt h)]
  rw [validate_text, hissues]
  rfl

/-- The issues of a member are issues of the object. -/
theorem validateFields_cons_error {name : String} {value : Json} {schema : Schema} {sent : Members}
    {path : Path} {issues : List Issue} (h : sent.get? name = some value)
    (hvalue : schema.validate (path ++ [.member name]) (some value) = .error issues)
    (presence : Presence) (rest : Fields) :
    ∃ issues, validateFields (.cons name presence schema rest) path sent = .error issues := by
  rw [validateFields, h, hvalue]
  · cases validateFields rest path sent with
    | ok members => exact ⟨issues, rfl⟩
    | error more => exact ⟨issues ++ more, rfl⟩
  · simp [h]
  · simp [h]

end Schema

namespace Service

open Http

variable {config : Config} {request : Request} {schema : Schema}

/-- A request that posts JSON, as it says, to an operation that inspects keys. -/
structure PostsJson (request : Request) : Prop where
  /-- The method is `POST`. -/
  method_eq : request.method = "POST"
  /-- The target is one of the two operations. -/
  route_mem : request.target.route ∈ ["/keys/inspect", "/autocrypt/inspect"]
  /-- The media type is that of JSON, perhaps with parameters. -/
  mediaType : ∃ mediaType, request.headers.get? "Content-Type" = some mediaType ∧
    MediaType.isJson mediaType = true

/-- A request with nothing wrong about it but that its body is not JSON. -/
structure IsMalformed (request : Request) : Prop where
  /-- An identifier that is brought along is not too long. -/
  identifier_le : ∀ identifier ∈ request.headers.get? "X-Request-ID", identifier.length ≤ 128
  /-- The body is not JSON. -/
  malformed : ∃ fault, Json.parse (Text.Utf8.decode (request.body.getD [])) = .error fault

/-- The statuses that the operations declare. -/
def declaredStatuses : List Binary64 := [200, 400, 413]

/-! ## Admitted bodies -/

/-- A schema refuses a value by its issues. -/
theorem exists_of_meetsSchema {value : Json} {refusal : BodyRefusal}
    (h : meetsSchema schema value = .error refusal) : ∃ issues, refusal = .invalid issues := by
  unfold meetsSchema at h
  split at h
  · cases h
  · next issues _ =>
    cases h
    exact ⟨issues, rfl⟩

/-- The header fields of a request are admitted only if its identifier is not too long. -/
theorem length_le_of_meetsSchema {described : Json}
    (h : meetsSchema Schema.requestHeaders (describedHeaders request) = .ok described) :
    ∀ identifier ∈ request.headers.get? requestIdField, identifier.length ≤ 128 := by
  intro identifier hidentifier
  by_contra hlong
  have hdescribed : describedHeaders request = .object [(requestIdField, .string identifier)] := by
    rw [describedHeaders, Option.mem_def.mp hidentifier]
    rfl
  have hmember : Members.get? [(requestIdField, .string identifier)] "X-Request-ID" =
      some (.string identifier) := rfl
  have hrefused : (Schema.text [.atMost 128]).validate ([] ++ [.member "X-Request-ID"])
      (some (.string identifier)) = .error [Issue.general _ (.tooLong 128)] :=
    Schema.validate_atMost_of_lt (Nat.lt_of_not_le hlong) _
  obtain ⟨issues, hissues⟩ := Schema.validateFields_cons_error hmember hrefused .optional .nil
  have hvalidate : Schema.requestHeaders.validate [] (some (describedHeaders request)) =
      .error issues := by
    rw [hdescribed, Schema.requestHeaders, Schema.object, Schema.validate_record, Fields.ofList,
      Fields.ofList, hissues]
    rfl
  rw [meetsSchema, hvalidate] at h
  cases h

/-- A body that is announced as JSON is refused by the reader only if it is not JSON. -/
theorem readJson_eq (h : PostsJson request) :
    readJson request =
      (Json.parse (Text.Utf8.decode (request.body.getD []))).mapError fun _ => .malformedJson := by
  obtain ⟨mediaType, hfield, hjson⟩ := h.mediaType
  -- An empty media type would count as none, but it is not that of JSON.
  have hne : mediaType.isEmpty = false := by
    by_contra hempty
    have hnone : mediaType = "" := by simpa using hempty
    rw [hnone] at hjson
    revert hjson
    decide
  have hstated : mediaType? request = some mediaType := by
    rw [mediaType?, hfield, Option.filter, hne]
    rfl
  unfold readJson
  rw [hstated]
  dsimp only
  rw [if_pos hjson]
  cases Json.parse (Text.Utf8.decode (request.body.getD [])) <;> rfl

/-- The body of a request is admitted, refused with issues, or not JSON. -/
theorem admittedBody_cases (h : PostsJson request) (schema : Schema) :
    (¬IsMalformed request ∧ ∃ body, admittedBody schema request = .ok body) ∨
      (¬IsMalformed request ∧ ∃ issues, admittedBody schema request = .error (.invalid issues)) ∨
      (IsMalformed request ∧ admittedBody schema request = .error .malformedJson) := by
  have hread := readJson_eq h
  unfold admittedBody
  rw [hread]
  cases hdescribed : meetsSchema Schema.requestHeaders (describedHeaders request) with
  | error refusal =>
    -- The body is not looked at.
    obtain ⟨issues, rfl⟩ := exists_of_meetsSchema hdescribed
    refine .inr (.inl ⟨fun hmalformed => ?_, issues, rfl⟩)
    obtain ⟨described, hok⟩ := meetsSchema_describedHeaders hmalformed.identifier_le
    rw [hdescribed] at hok
    cases hok
  | ok described =>
    cases hparse : Json.parse (Text.Utf8.decode (request.body.getD [])) with
    | error fault =>
      exact .inr (.inr ⟨⟨length_le_of_meetsSchema hdescribed, fault, hparse⟩, rfl⟩)
    | ok json =>
      have hjson : ¬IsMalformed request := by
        rintro ⟨-, fault, hfault⟩
        rw [hparse] at hfault
        cases hfault
      cases hbody : meetsSchema schema json with
      | ok body => exact .inl ⟨hjson, body, hbody⟩
      | error refusal =>
        obtain ⟨issues, rfl⟩ := exists_of_meetsSchema hbody
        exact .inr (.inl ⟨hjson, issues, hbody⟩)

/-! ## Statuses -/

/-- Key data that cannot be read is refused, and any other is inspected. -/
theorem status_inspectKey (asked : InspectKeyRequest) (requestId : String) :
    (asked.reply requestId).response.status ∈ [200, 400] := by
  unfold InspectKeyRequest.reply
  split
  · exact List.mem_cons_self
  · exact List.mem_cons_of_mem _ List.mem_cons_self

/-- So is an Autocrypt header. -/
theorem status_inspectAutocrypt (asked : InspectAutocryptRequest) (requestId : String) :
    (asked.reply requestId).response.status ∈ [200, 400] := by
  unfold InspectAutocryptRequest.reply
  split
  · exact List.mem_cons_self
  · exact List.mem_cons_of_mem _ List.mem_cons_self

/-- A body that is not JSON is taken for a failure, and any other is replied to. -/
theorem status_withBody (h : PostsJson request) {reply : Json → Reply}
    (hreply : ∀ body, (reply body).response.status ∈ [200, 400]) (schema : Schema)
    (requestId : String) :
    let status := (withBody schema requestId request reply).response.status
    (¬IsMalformed request ∧ status ∈ [200, 400]) ∨ (IsMalformed request ∧ status = 500) := by
  unfold withBody
  rcases admittedBody_cases h schema with ⟨hjson, body, hbody⟩ | ⟨hjson, issues, hbody⟩ |
    ⟨hmalformed, hbody⟩
  · rw [hbody]
    exact .inl ⟨hjson, hreply body⟩
  · rw [hbody]
    exact .inl ⟨hjson, List.mem_cons_of_mem _ List.mem_cons_self⟩
  · rw [hbody]
    exact .inr ⟨hmalformed, rfl⟩

/-- What is posted within the limit goes to one of the two operations. -/
theorem status_route (h : PostsJson request) (surroundings : Surroundings) (requestId : String)
    (hlimit : exceedsLimit config request = false) :
    let status := (route config surroundings requestId request).response.status
    (¬IsMalformed request ∧ status ∈ [200, 400]) ∨ (IsMalformed request ∧ status = 500) := by
  unfold route
  dsimp only
  rw [hlimit, Bool.and_false, if_neg Bool.false_ne_true, h.method_eq]
  rcases List.mem_pair.mp h.route_mem with hroute | hroute
  · rw [hroute]
    exact status_withBody h (fun body => status_inspectKey _ requestId) _ requestId
  · rw [hroute]
    exact status_withBody h (fun body => status_inspectAutocrypt _ requestId) _ requestId

/-- What is posted beyond the limit goes to none. -/
theorem status_route_tooLarge (h : PostsJson request) (surroundings : Surroundings)
    (requestId : String) (hlimit : exceedsLimit config request = true) :
    (route config surroundings requestId request).response.status = 413 := by
  have hlimited : isLimited request.target.route = true := by
    rcases List.mem_pair.mp h.route_mem with hroute | hroute
    · rw [hroute]
      decide
    · rw [hroute]
      decide
  unfold route
  dsimp only
  rw [hlimited, hlimit, Bool.and_true, if_pos rfl]
  rfl

/-- A request that posts JSON has one of the declared statuses, except if nothing is wrong with it
but that its body is not JSON: then the status is 500. It is 413 exactly beyond the limit. -/
theorem declared_status_iff (h : PostsJson request) (config : Config)
    (surroundings : Surroundings) :
    let status := (respond config surroundings request).response.status
    (status ∈ declaredStatuses ↔ ¬(exceedsLimit config request = false ∧ IsMalformed request)) ∧
      (status = 500 ↔ exceedsLimit config request = false ∧ IsMalformed request) ∧
      (status = 413 ↔ exceedsLimit config request = true) := by
  obtain ⟨requestId, hstatus, -⟩ := respond_of_method_eq h.method_eq config surroundings
  dsimp only
  rw [hstatus]
  cases hlimit : exceedsLimit config request with
  | true =>
    rw [status_route_tooLarge h surroundings requestId hlimit]
    exact ⟨iff_of_true (by decide) (fun hfailed => Bool.noConfusion hfailed.1),
      iff_of_false (by decide) (fun hfailed => Bool.noConfusion hfailed.1), iff_of_true rfl rfl⟩
  | false =>
    rcases status_route h surroundings requestId hlimit with ⟨hjson, hmem⟩ | ⟨hmalformed, hfailed⟩
    · -- The two statuses of an operation are declared and are no others.
      have hreplied : ∀ status ∈ ([200, 400] : List Binary64),
          status ∈ declaredStatuses ∧ status ≠ 500 ∧ status ≠ 413 := by decide
      obtain ⟨hdeclared, hne, hne'⟩ := hreplied _ hmem
      exact ⟨iff_of_true hdeclared (fun hfailed => hjson hfailed.2),
        iff_of_false hne (fun hfailed => hjson hfailed.2), iff_of_false hne' Bool.false_ne_true⟩
    · rw [hfailed]
      exact ⟨iff_of_false (by decide) (not_not_intro ⟨rfl, hmalformed⟩),
        iff_of_true rfl ⟨rfl, hmalformed⟩, iff_of_false (by decide) Bool.false_ne_true⟩

/-- A JSON text is posted to an operation. -/
theorem postsJson_jsonRequest {path text : String}
    (h : (jsonRequest path text).target.route ∈ ["/keys/inspect", "/autocrypt/inspect"]) :
    PostsJson (jsonRequest path text) :=
  ⟨rfl, h, "application/json", rfl, by decide⟩

/-- An array is JSON, if not what is asked for. -/
theorem declared_status_iff_array :
    PostsJson (jsonRequest "/autocrypt/inspect" "[]") ∧
      (respond {} sampleSurroundings (jsonRequest "/autocrypt/inspect" "[]")).response.status ∈
        declaredStatuses := by
  have hposts : PostsJson (jsonRequest "/autocrypt/inspect" "[]") :=
    postsJson_jsonRequest (by decide)
  have hparse : Json.parse (Text.Utf8.decode (Text.Utf8.encode "[]".toList)) =
      .ok (.array []) := by
    rfl
  refine ⟨hposts, (declared_status_iff hposts {} sampleSurroundings).1.mpr ?_⟩
  rintro ⟨-, -, fault, hfault⟩
  have hrefused : Json.parse (Text.Utf8.decode (Text.Utf8.encode "[]".toList)) = .error fault :=
    hfault
  rw [hparse] at hrefused
  cases hrefused

/-- A brace that is not closed is posted as JSON and has a status that is not declared. -/
theorem openBrace_undeclared :
    PostsJson (jsonRequest "/keys/inspect" "\x7b") ∧
      (respond {} sampleSurroundings (jsonRequest "/keys/inspect" "\x7b")).response.status ∉
        declaredStatuses :=
  ⟨postsJson_jsonRequest (by decide), by decide +kernel⟩

end Service

end PgpInspect
