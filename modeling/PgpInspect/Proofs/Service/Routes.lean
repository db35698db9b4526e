import PgpInspect.Proofs.Autocrypt
import PgpInspect.Proofs.Json
import PgpInspect.Proofs.Schema.Admission
import PgpInspect.Service

/-!
# Two ways to ask about one key

A key in base64 and the address that it is claimed for may be sent as they are, or in an Autocrypt
header. Both requests are answered alike (`Service.keyRequest_eq_autocryptRequest`): the two checks
of the key admit the same texts if these have a character of the alphabet, however blanks are laid
out in them, and both operations hand the same octets, the same claim and the same time to the same
inspection.

A request is known by what it posts (`Service.Posts`): its method and path, and the members of the
object that its body reads as. How the body writes the object, and what the request says otherwise,
plays no part.
-/

namespace PgpInspect

namespace Schema

/-- A claim of an address is admitted without an origin. -/
theorem admits_identityClaim {addr : String} (h : Pattern.email.accepts addr.toList = true) :
    identityClaim.Admits (.object [("email", .string addr)]) := by
  intro path
  have hemail : Members.get? [("email", .string addr)] "email" = some (.string addr) := rfl
  have horigin : Members.get? [("email", .string addr)] "origin" = none := rfl
  rw [identityClaim, object, validate_record, Fields.ofList,
    validateFields_cons hemail (admits_formatted _ h), Fields.ofList,
    validateFields_cons_optional horigin, Fields.ofList, validateFields_nil]
  rfl

end Schema

namespace Service

open Http
open Text (isBlank withoutBlanks)
open Text.Base64 (isAlphabet IsLettered isLettered_append)

/-! ## Keys in base64 -/

variable {text : List Char}

/-- A character of the alphabet is not blank. -/
theorem not_isBlank_of_isAlphabet {c : Char} (h : isAlphabet c = true) : isBlank c = false := by
  obtain ⟨hleast, hgreatest, -⟩ := Text.Base64.bounds_of_isAlphabet h
  simp only [isBlank, Bool.or_eq_false_iff, Bool.and_eq_false_iff, decide_eq_false_iff_not,
    beq_eq_false_iff_ne]
  omega

/-- A text in base64 is characters of the alphabet and blanks, then up to two `=`, then blanks. -/
theorem exists_of_isBase64Text (h : isBase64Text text = true) :
    ∃ content padding behind : List Char, text = content ++ padding ++ behind ∧
      (∀ c ∈ content, isAlphabet c = true ∨ isBlank c = true) ∧
      (padding.length ≤ 2 ∧ ∀ c ∈ padding, c = '=') ∧ ∀ c ∈ behind, isBlank c = true := by
  let isContent (c : Char) : Bool := isAlphabet c || isBlank c
  let afterContent := text.dropWhile isContent
  simp only [isBase64Text, Bool.and_eq_true, decide_eq_true_eq, List.all_eq_true] at h
  obtain ⟨⟨-, hpadding⟩, hbehind⟩ := h
  refine ⟨text.takeWhile isContent, afterContent.takeWhile (· == '='),
    afterContent.dropWhile (· == '='), ?_, fun c hc => ?_, ⟨hpadding, fun c hc => ?_⟩, hbehind⟩
  · rw [List.append_assoc, List.takeWhile_append_dropWhile, List.takeWhile_append_dropWhile]
  · have hchar : isContent c = true := List.mem_takeWhile_imp hc
    exact Bool.or_eq_true _ _ ▸ hchar
  · exact beq_iff_eq.mp (List.mem_takeWhile_imp (p := (· == '=')) hc)

/-- A text in base64 has no semicolon. -/
theorem not_mem_of_isBase64Text (h : isBase64Text text = true) : ';' ∉ text := by
  obtain ⟨content, padding, behind, rfl, hcontent, hpadding, hbehind⟩ := exists_of_isBase64Text h
  rw [List.mem_append, List.mem_append, not_or, not_or]
  refine ⟨⟨fun hc => ?_, fun hc => ?_⟩, fun hc => ?_⟩
  · exact absurd (hcontent _ hc) (by decide)
  · exact absurd (hpadding.2 _ hc) (by decide)
  · exact absurd (hbehind _ hc) (by decide)

/-- Without its blanks a text in base64 is letters, then up to two pads. -/
theorem isLettered_withoutBlanks (h : isBase64Text text = true) :
    IsLettered (withoutBlanks text) := by
  obtain ⟨content, padding, behind, rfl, hcontent, ⟨hlength, hpadding⟩, hbehind⟩ :=
    exists_of_isBase64Text h
  have hletters : ∀ c ∈ withoutBlanks content, isAlphabet c = true := by
    intro c hc
    obtain ⟨hmem, hblank⟩ := List.mem_filter.mp hc
    rcases hcontent c hmem with hletter | hletter
    · exact hletter
    · simp [hletter] at hblank
  have hkept : padding.filter (fun c => !isBlank c) = padding :=
    List.filter_eq_self.mpr fun c hc => by rw [hpadding c hc]; decide
  have hnone : behind.filter (fun c => !isBlank c) = [] :=
    List.filter_eq_nil_iff.mpr fun c hc => by simp [hbehind c hc]
  have hwritten : withoutBlanks (content ++ padding ++ behind) =
      withoutBlanks content ++ List.replicate padding.length '=' := by
    rw [← List.eq_replicate_iff.mpr ⟨rfl, hpadding⟩, withoutBlanks, List.filter_append,
      List.filter_append, hkept, hnone, List.append_nil]
    rfl
  rw [hwritten]
  exact isLettered_append hletters hlength

/-- Without its blanks a text in base64 is what Autocrypt headers take for a key, if it has a
character of the alphabet. -/
theorem isBase64_withoutBlanks (h : isBase64Text text = true)
    (halphabet : ∃ c ∈ text, isAlphabet c = true) :
    AutocryptHeader.isBase64 (withoutBlanks text) = true := by
  refine AutocryptHeader.isBase64_iff.mpr ⟨isLettered_withoutBlanks h, ?_⟩
  obtain ⟨c, hc, hletter⟩ := halphabet
  have hkept : c ∈ withoutBlanks text :=
    List.mem_filter.mpr ⟨hc, by rw [not_isBlank_of_isAlphabet hletter]; rfl⟩
  exact List.ne_nil_of_mem (List.mem_filter.mpr ⟨hkept, hletter⟩)

/-! ## Posted requests -/

variable {config : Config} {path : String} {members : Members} {request : Request}

/-- A request posts an object with these members to a path. -/
structure Posts (config : Config) (path : String) (members : Members) (request : Request) :
    Prop where
  /-- The method is `POST`. -/
  method_eq : request.method = "POST"
  /-- The target has the path. -/
  route_eq : request.target.route = path
  /-- The body is within the limit. -/
  within_limit : exceedsLimit config request = false
  /-- An identifier that is brought along is not too long. -/
  identifier_le : ∀ identifier ∈ request.headers.get? requestIdField, identifier.length ≤ 128
  /-- The body reads as an object with the members, in any order. -/
  reads : ∃ sent : Members, readJson request = .ok (.object sent) ∧
    ∀ name, sent.get? name = members.get? name

/-- The header fields of a request are admitted if its identifier is not too long. -/
theorem meetsSchema_describedHeaders
    (h : ∀ identifier ∈ request.headers.get? requestIdField, identifier.length ≤ 128) :
    ∃ described, meetsSchema Schema.requestHeaders (describedHeaders request) = .ok described := by
  suffices hvalidate : ∃ described, Schema.requestHeaders.validate []
      (some (describedHeaders request)) = .ok described by
    obtain ⟨described, hdescribed⟩ := hvalidate
    exact ⟨described, by rw [meetsSchema, hdescribed]⟩
  rw [describedHeaders, Schema.requestHeaders, Schema.object, Schema.validate_record, Fields.ofList]
  cases hidentifier : request.headers.get? requestIdField with
  | none => rw [Schema.validateFields_cons_optional rfl]; exact ⟨_, rfl⟩
  | some identifier =>
    rw [Schema.validateFields_cons rfl (Schema.admits_atMost (h identifier hidentifier))]
    exact ⟨_, rfl⟩

/-- An operation gets the members that are posted if its schema admits them. -/
theorem admittedBody_of_posts (h : Posts config path members request)
    {fields : List (String × Presence × Schema)}
    (hadmits : (Schema.object fields).Admits (.object members)) :
    admittedBody (Schema.object fields) request = .ok (.object members) := by
  -- The header fields are checked first, and what the check gives is not used.
  obtain ⟨described, hdescribed⟩ := meetsSchema_describedHeaders h.identifier_le
  obtain ⟨sent, hread, hsent⟩ := h.reads
  have hvalidate := Schema.validate_object_of_admits hadmits hsent []
  unfold admittedBody
  rw [hdescribed, hread]
  show meetsSchema (Schema.object fields) (.object sent) = _
  rw [meetsSchema, hvalidate]

/-- What is added around the reply to a posted request leaves its status and its body alone. -/
theorem respond_of_method_eq (h : request.method = "POST") (config : Config)
    (surroundings : Surroundings) :
    ∃ requestId, (respond config surroundings request).response.status =
        (route config surroundings requestId request).response.status ∧
      (respond config surroundings request).response.body =
        (route config surroundings requestId request).response.body := by
  let requestId := chooseRequestId (request.headers.get? requestIdField) surroundings.requestId
  -- The fields about access are added to the response, which leaves its status and its body.
  have hanswer : (answer config surroundings requestId request).response.status =
      (route config surroundings requestId request).response.status ∧
        (answer config surroundings requestId request).response.body =
          (route config surroundings requestId request).response.body := by
    have hmethod : ¬ request.method = "OPTIONS" := by rw [h]; decide
    rw [answer, if_neg hmethod]
    exact ⟨rfl, rfl⟩
  have hmethod : ¬ request.method = "HEAD" := by rw [h]; decide
  refine ⟨requestId, hanswer.1, ?_⟩
  rw [← hanswer.2]
  exact if_neg hmethod

/-- What is posted is answered by the operation of the path. -/
theorem respond_of_posts (h : Posts config path members request) (operation : Operation)
    (hoperation : operation? "POST" path = some operation) (surroundings : Surroundings) :
    ∃ requestId, (respond config surroundings request).response.status =
        (perform surroundings requestId request operation).response.status ∧
      (respond config surroundings request).response.body =
        (perform surroundings requestId request operation).response.body := by
  obtain ⟨requestId, hstatus, hbody⟩ := respond_of_method_eq h.method_eq config surroundings
  have hroute : route config surroundings requestId request =
      perform surroundings requestId request operation := by
    unfold route
    dsimp only
    rw [h.within_limit, Bool.and_false, if_neg (by decide), h.method_eq, h.route_eq, hoperation]
  rw [hroute] at hstatus hbody
  exact ⟨requestId, hstatus, hbody⟩

/-! ## The two requests -/

section

variable (addr key : String) (whole : Bool) (now : Nat)

/-- A key in base64 with the address that it is claimed for. -/
def keyMembers : Members :=
  [ ("keyData", .string key), ("encoding", .string "base64"),
    ("claim", .object [("email", .string addr)]), ("fullFingerprint", .bool whole),
    ("now", .nat now) ]

/-- An Autocrypt header of an address and a key. -/
def autocryptMembers : Members :=
  [ ("header", .string ("addr=" ++ addr ++ "; keydata=" ++ key)), ("fullFingerprint", .bool whole),
    ("now", .nat now) ]

/-- What is found in the key at the time, for the claim of the address. -/
def foundJson : Json :=
  inspectionJson
    (inspectKeyData (.octets (Text.Base64.decode (withoutBlanks key.toList))) (now : Binary64)
      (some ⟨addr, AutocryptHeader.defaultOrigin⟩))
    whole (now : Binary64)

variable {addr key whole now}

/-- The operation on keys admits the key with the address. -/
theorem admits_keyMembers (haddr : Pattern.email.accepts addr.toList = true)
    (hkey : 1 ≤ key.length) (hnow : now ≤ Binary64.greatestSafe) :
    Schema.inspectKeyRequest.Admits (.object (keyMembers addr key whole now)) := by
  refine Schema.admits_object (by decide) ?_
  refine .cons ⟨rfl, Schema.admits_atLeast _ hkey⟩ ?_
  refine .cons ⟨rfl, Schema.admits_choice (by decide)⟩ ?_
  refine .cons ⟨rfl, Schema.admits_identityClaim haddr⟩ ?_
  exact .cons ⟨rfl, Schema.admits_boolean whole⟩ (.cons ⟨rfl, Schema.admits_natural hnow⟩ .nil)

/-- The operation on Autocrypt headers admits the header of both. -/
theorem admits_autocryptMembers (hnow : now ≤ Binary64.greatestSafe) :
    Schema.inspectAutocryptRequest.Admits (.object (autocryptMembers addr key whole now)) := by
  have hheader : 1 ≤ ("addr=" ++ addr ++ "; keydata=" ++ key).length := by
    rw [String.length_append, String.length_append, String.length_append]
    have hname : "addr=".length = 5 := rfl
    omega
  refine Schema.admits_object (by decide) ?_
  refine .cons ⟨rfl, Schema.admits_atLeast _ hheader⟩ ?_
  exact .cons ⟨rfl, Schema.admits_boolean whole⟩ (.cons ⟨rfl, Schema.admits_natural hnow⟩ .nil)

/-- A posted key is inspected for the claim of the address. -/
theorem response_perform_inspectKey (hposts : Posts config path (keyMembers addr key whole now) request)
    (haddr : Pattern.email.accepts addr.toList = true) (hkey : isBase64Text key.toList = true)
    (hne : 1 ≤ key.length) (hnow : now ≤ Binary64.greatestSafe) (surroundings : Surroundings)
    (requestId : String) : (perform surroundings requestId request .inspectKey).response =
      .ofJson 200 (foundJson addr key whole now) := by
  have hbody : admittedBody Schema.inspectKeyRequest request =
      .ok (.object (keyMembers addr key whole now)) :=
    admittedBody_of_posts hposts (admits_keyMembers haddr hne hnow)
  have hrequest : InspectKeyRequest.ofJson surroundings.now
      (.object (keyMembers addr key whole now)) =
        ⟨key, .base64, ⟨some ⟨addr, AutocryptHeader.defaultOrigin⟩, whole, (now : Binary64)⟩⟩ := rfl
  have hdata : (InspectKeyRequest.ofJson surroundings.now
      (.object (keyMembers addr key whole now))).data? =
        some (.octets (Text.Base64.decode (withoutBlanks key.toList))) := by
    rw [hrequest, InspectKeyRequest.data?]
    exact if_pos hkey
  rw [perform, withBody, hbody]
  dsimp only
  rw [InspectKeyRequest.reply, hdata]
  rfl

/-- A posted header is inspected for the claim that it makes. -/
theorem response_perform_inspectAutocrypt
    (hposts : Posts config path (autocryptMembers addr key whole now) request)
    (haddr : Pattern.email.accepts addr.toList = true) (hkey : isBase64Text key.toList = true)
    (halphabet : ∃ c ∈ key.toList, isAlphabet c = true) (hnow : now ≤ Binary64.greatestSafe)
    (surroundings : Surroundings) (requestId : String) :
    (perform surroundings requestId request .inspectAutocrypt).response =
      .ofJson 200 (foundJson addr key whole now) := by
  have hbody : admittedBody Schema.inspectAutocryptRequest request =
      .ok (.object (autocryptMembers addr key whole now)) :=
    admittedBody_of_posts hposts (admits_autocryptMembers hnow)
  have hheader : ("addr=" ++ addr ++ "; keydata=" ++ key).toList =
      "addr=".toList ++ addr.toList ++ "; keydata=".toList ++ key.toList := by simp
  have hrequest : InspectAutocryptRequest.ofJson surroundings.now
      (.object (autocryptMembers addr key whole now)) =
        ⟨"addr=" ++ addr ++ "; keydata=" ++ key, whole, (now : Binary64)⟩ := rfl
  have hparsed : AutocryptHeader.parse ("addr=" ++ addr ++ "; keydata=" ++ key).toList =
      .ok ⟨addr, .noPreference, Text.Base64.decode (withoutBlanks key.toList)⟩ := by
    rw [hheader, AutocryptHeader.parse_addr_keydata haddr (not_mem_of_isBase64Text hkey)
      (isBase64_withoutBlanks hkey halphabet), String.ofList_toList]
  rw [perform, withBody, hbody]
  dsimp only
  rw [hrequest, InspectAutocryptRequest.reply, hparsed]
  rfl

/-- A key in base64, posted with an address or in the Autocrypt header of both, is answered in the
same way, whoever asks and whatever the clock says. -/
theorem keyRequest_eq_autocryptRequest {keyRequest autocryptRequest : Request}
    (haddr : Pattern.email.accepts addr.toList = true) (hkey : isBase64Text key.toList = true)
    (halphabet : ∃ c ∈ key.toList, isAlphabet c = true) (hnow : now ≤ Binary64.greatestSafe)
    (hposts : Posts config "/keys/inspect" (keyMembers addr key whole now) keyRequest)
    (hposts' : Posts config "/autocrypt/inspect" (autocryptMembers addr key whole now)
      autocryptRequest) (surroundings surroundings' : Surroundings) :
    ∃ found, (respond config surroundings keyRequest).response.status = 200 ∧
      (respond config surroundings keyRequest).response.body = some found ∧
      (respond config surroundings' autocryptRequest).response.status = 200 ∧
      (respond config surroundings' autocryptRequest).response.body = some found := by
  have hne : 1 ≤ key.length := by
    obtain ⟨c, hc, -⟩ := halphabet
    rw [← String.length_toList]
    exact List.length_pos_of_mem hc
  obtain ⟨requestId, hstatus, hbody⟩ :=
    respond_of_posts hposts .inspectKey rfl surroundings
  obtain ⟨requestId', hstatus', hbody'⟩ :=
    respond_of_posts hposts' .inspectAutocrypt rfl surroundings'
  have hkeyReply := response_perform_inspectKey hposts haddr hkey hne hnow surroundings requestId
  have hautocryptReply := response_perform_inspectAutocrypt hposts' haddr hkey halphabet hnow
    surroundings' requestId'
  refine ⟨foundJson addr key whole now, ?_, ?_, ?_, ?_⟩
  · rw [hstatus, hkeyReply]
    rfl
  · rw [hbody, hkeyReply]
    rfl
  · rw [hstatus', hautocryptReply]
    rfl
  · rw [hbody', hautocryptReply]
    rfl

end

/-- A request that posts a JSON text to a path. -/
def jsonRequest (path text : String) : Request :=
  { method := "POST"
    target := ⟨path.toList, none, none⟩
    headers := [("content-type", "application/json")]
    body := some (Text.Utf8.encode text.toList) }

/-- A key of version 3 in base64, with a blank in it. -/
def sampleKey : String := "xg4DAAAA AQABAQABAQACAw=="

/-- The key posted with an address. -/
def sampleKeyRequest : Request :=
  jsonRequest "/keys/inspect"
    ("\x7b\"keyData\":\"xg4DAAAA AQABAQABAQACAw==\",\"encoding\":\"base64\"," ++
      "\"claim\":\x7b\"email\":\"alice@example.org\"\x7d,\"fullFingerprint\":true,\"now\":5\x7d")

/-- The Autocrypt header of both, posted. -/
def sampleAutocryptRequest : Request :=
  jsonRequest "/autocrypt/inspect"
    ("\x7b\"header\":\"addr=alice@example.org; keydata=xg4DAAAA AQABAQABAQACAw==\"," ++
      "\"fullFingerprint\":true,\"now\":5\x7d")

/-- A moment at which a request is answered. -/
def sampleSurroundings : Surroundings := ⟨"1", "2024-01-01T00:00:00Z", 1704067200, "1ms"⟩

/-- A JSON text posts the members of the object that it writes. -/
theorem posts_jsonRequest {path text : String}
    (hroute : (jsonRequest path text).target.route = path)
    (hlimit : exceedsLimit config (jsonRequest path text) = false)
    (hread : (readJson (jsonRequest path text)).toOption = some (.object members)) :
    Posts config path members (jsonRequest path text) := by
  refine ⟨rfl, hroute, hlimit, fun _ hnone => ?_, members, ?_, fun _ => rfl⟩
  · cases hnone
  · cases hjson : readJson (jsonRequest path text) with
    | error refusal =>
      rw [hjson] at hread
      cases hread
    | ok json =>
      rw [hjson] at hread
      exact congrArg Except.ok (Option.some.inj hread)

/-- The sample key is posted with the address. -/
theorem posts_sampleKeyRequest :
    Posts {} "/keys/inspect" (keyMembers "alice@example.org" sampleKey true 5) sampleKeyRequest :=
  posts_jsonRequest (by decide +kernel) (by decide +kernel) (by decide +kernel)

/-- The sample key is answered for alike. -/
theorem keyRequest_eq_autocryptRequest_sample :
    Posts {} "/keys/inspect" (keyMembers "alice@example.org" sampleKey true 5) sampleKeyRequest ∧
      Posts {} "/autocrypt/inspect" (autocryptMembers "alice@example.org" sampleKey true 5)
        sampleAutocryptRequest ∧
      ∃ found, (respond {} sampleSurroundings sampleKeyRequest).response.status = 200 ∧
        (respond {} sampleSurroundings sampleKeyRequest).response.body = some found ∧
        (respond {} sampleSurroundings sampleAutocryptRequest).response.status = 200 ∧
        (respond {} sampleSurroundings sampleAutocryptRequest).response.body = some found := by
  have haddr : Pattern.email.accepts "alice@example.org".toList = true := by decide +kernel
  have hkey : isBase64Text sampleKey.toList = true := by decide +kernel
  have halphabet : ∃ c ∈ sampleKey.toList, isAlphabet c = true := ⟨'x', by decide, by decide⟩
  have hposts' : Posts {} "/autocrypt/inspect"
      (autocryptMembers "alice@example.org" sampleKey true 5) sampleAutocryptRequest :=
    posts_jsonRequest (by decide +kernel) (by decide +kernel) (by decide +kernel)
  exact ⟨posts_sampleKeyRequest, hposts', keyRequest_eq_autocryptRequest haddr hkey halphabet
    (by decide) posts_sampleKeyRequest hposts' sampleSurroundings sampleSurroundings⟩

end Service

end PgpInspect
