import PgpInspect.Proofs.Service.Routes

/-!
# What is read from an accepted key text

A key comes in base64 in an Autocrypt header, or by itself. Either way its text is tested by its
characters, and what passes is read leniently. So octets are read from every accepted text, but they
are not always those that the text is base64 of (`isReading_of_accepted`): a letter that is alone in
its group of four is dropped, also if it is the only one. An accepted text is read without a loss
exactly if its letters hold whole octets (`Text.Base64.HoldsOctets`).
-/

namespace PgpInspect

open Text (withoutBlanks)
open Text.Base64 (IsReading IsEncoding)

/-! ## In a header -/

namespace AutocryptHeader

variable {text : List Char} {header : AutocryptHeader}

/-- The key of a header is read from the value of its attribute. -/
theorem isReading_of_parse (h : parse text = .ok header) :
    ∃ attributes value, attributesOf [] (Text.split ';' text) = .ok attributes ∧
      lookup attributes "keydata".toList = some value ∧
      IsReading (withoutBlanks value) header.keydata := by
  unfold parse at h
  cases hattributes : attributesOf [] (Text.split ';' text) with
  | error fault =>
    rw [hattributes] at h
    cases h
  | ok attributes =>
    rw [hattributes] at h
    have hmade : ofAttributes attributes = .ok header := h
    unfold ofAttributes at hmade
    split at hmade
    · cases hmade
    · dsimp only at hmade
      split at hmade
      · cases hmade
      · split at hmade
        · cases hmade
        · next hbase64 =>
          cases hmade
          rw [Bool.not_eq_true, Bool.not_eq_false'] at hbase64
          cases hvalue : lookup attributes "keydata".toList with
          | none =>
            rw [hvalue] at hbase64
            cases hbase64
          | some value =>
            rw [hvalue] at hbase64
            exact ⟨attributes, value, rfl, hvalue, (isBase64_iff.mp hbase64).1.isReading⟩

end AutocryptHeader

/-! ## By itself -/

namespace Service

open Http

variable {config : Config} {request : Request} {surroundings : Surroundings} {requestId : String}

/-- The reply to a key in base64 that is not refused is made of octets that are read from its
text. -/
theorem isReading_of_reply {asked : InspectKeyRequest} (hencoding : asked.encoding = .base64)
    (hstatus : (asked.reply requestId).response.status = 200) :
    ∃ octets, IsReading (withoutBlanks asked.keyData.toList) octets ∧
      (asked.reply requestId).response = .ofJson 200
        (inspectionJson (inspectKeyData (.octets octets) asked.options.now asked.options.claim)
          asked.options.fullFingerprint asked.options.now) := by
  unfold InspectKeyRequest.reply at hstatus ⊢
  cases hdata : asked.data? with
  | none =>
    rw [hdata] at hstatus
    have hrefused : (400 : Binary64) = 200 := hstatus
    exact absurd hrefused (by decide)
  | some data =>
    rw [InspectKeyRequest.data?, hencoding] at hdata
    dsimp only at hdata
    split_ifs at hdata with hbase64
    cases hdata
    exact ⟨_, (isLettered_withoutBlanks hbase64).isReading, rfl⟩

/-- The reply about a refused body has another status than 200. -/
theorem status_refusedBody_ne (requestId : String) (refusal : BodyRefusal) :
    (refusedBody requestId refusal).response.status ≠ 200 := by
  have hne : (500 : Binary64) ≠ 200 ∧ (400 : Binary64) ≠ 200 := by decide
  cases refusal with
  | unsupportedMediaType => exact hne.1
  | malformedJson => exact hne.1
  | invalid issues => exact hne.2

/-- A request about a key that is not refused has an admitted body, and is replied to. -/
theorem exists_reply_of_status (hmethod : request.method = "POST")
    (hroute : request.target.route = "/keys/inspect")
    (hstatus : (respond config surroundings request).response.status = 200) :
    ∃ body requestId, admittedBody Schema.inspectKeyRequest request = .ok body ∧
      let reply := (InspectKeyRequest.ofJson surroundings.now body).reply requestId
      reply.response.status = 200 ∧
        (respond config surroundings request).response.body = reply.response.body := by
  obtain ⟨requestId, hsame, hbody⟩ := respond_of_method_eq hmethod config surroundings
  rw [hsame] at hstatus
  rw [hbody]
  -- Any way around the operation ends in another status.
  unfold route at hstatus ⊢
  dsimp only at hstatus ⊢
  have hoperation : operation? request.method request.target.route = some .inspectKey := by
    rw [hmethod, hroute]
    rfl
  rw [hoperation] at hstatus ⊢
  split at hstatus
  · have hrefused : (413 : Binary64) = 200 := hstatus
    exact absurd hrefused (by decide)
  · next hlimit =>
    rw [if_neg hlimit]
    unfold perform withBody at hstatus ⊢
    cases hadmitted : admittedBody Schema.inspectKeyRequest request with
    | ok body =>
      rw [hadmitted] at hstatus
      exact ⟨body, requestId, rfl, hstatus, rfl⟩
    | error refusal =>
      rw [hadmitted] at hstatus
      exact absurd hstatus (status_refusedBody_ne requestId refusal)

/-! ## Both ways -/

/-- The octets of an accepted header, and those that a key in base64 is answered from, are read from
the text of the key, which is base64 of these octets exactly if its letters hold whole octets. -/
theorem isReading_of_accepted (text : List Char) (header : AutocryptHeader) (config : Config)
    (surroundings : Surroundings) (request : Request) :
    (AutocryptHeader.parse text = .ok header →
      ∃ attributes value,
        AutocryptHeader.attributesOf [] (Text.split ';' text) = .ok attributes ∧
          AutocryptHeader.lookup attributes "keydata".toList = some value ∧
          IsReading (withoutBlanks value) header.keydata) ∧
      (request.method = "POST" → request.target.route = "/keys/inspect" →
        (respond config surroundings request).response.status = 200 →
        ∃ body, admittedBody Schema.inspectKeyRequest request = .ok body ∧
          let asked := InspectKeyRequest.ofJson surroundings.now body
          asked.encoding = .base64 →
            ∃ octets, IsReading (withoutBlanks asked.keyData.toList) octets ∧
              (respond config surroundings request).response.body =
                some (inspectionJson
                  (inspectKeyData (.octets octets) asked.options.now asked.options.claim)
                  asked.options.fullFingerprint asked.options.now)) := by
  refine ⟨AutocryptHeader.isReading_of_parse, fun hmethod hroute hstatus => ?_⟩
  obtain ⟨body, requestId, hadmitted, hreplied, hbody⟩ :=
    exists_reply_of_status hmethod hroute hstatus
  refine ⟨body, hadmitted, fun hencoding => ?_⟩
  obtain ⟨octets, hreading, hresponse⟩ := isReading_of_reply hencoding hreplied
  exact ⟨octets, hreading, by rw [hbody, hresponse]; rfl⟩

/-- A header with a key of three octets. -/
def wholeHeader : List Char := "addr=a@example.org; keydata=QUJD".toList

/-- The sample header is read, and the sample request is answered from the octets that are read from
its key. -/
theorem isReading_sample :
    AutocryptHeader.parse wholeHeader = .ok ⟨"a@example.org", .noPreference, [0x41, 0x42, 0x43]⟩ ∧
      (∃ attributes value,
        AutocryptHeader.attributesOf [] (Text.split ';' wholeHeader) = .ok attributes ∧
          AutocryptHeader.lookup attributes "keydata".toList = some value ∧
          IsReading (withoutBlanks value) [0x41, 0x42, 0x43]) ∧
      (respond {} sampleSurroundings sampleKeyRequest).response.status = 200 ∧
      ∃ octets, IsReading (withoutBlanks sampleKey.toList) octets := by
  have hparse : AutocryptHeader.parse wholeHeader =
      .ok ⟨"a@example.org", .noPreference, [0x41, 0x42, 0x43]⟩ := by rfl
  have hstatus : (respond {} sampleSurroundings sampleKeyRequest).response.status = 200 := by
    decide +kernel
  have hbody : admittedBody Schema.inspectKeyRequest sampleKeyRequest =
      .ok (.object (keyMembers "alice@example.org" sampleKey true 5)) :=
    admittedBody_of_posts posts_sampleKeyRequest
      (admits_keyMembers (by decide +kernel) (by decide) (by decide))
  obtain ⟨hheader, hrequest⟩ := isReading_of_accepted wholeHeader
    ⟨"a@example.org", .noPreference, [0x41, 0x42, 0x43]⟩ {} sampleSurroundings sampleKeyRequest
  obtain ⟨body, hadmitted, hread⟩ := hrequest rfl (by decide) hstatus
  obtain rfl := Except.ok.inj (hbody.symm.trans hadmitted)
  obtain ⟨octets, hreading, -⟩ := hread rfl
  exact ⟨hparse, hheader hparse, hstatus, octets, hreading⟩

/-- A header with a key text of five letters. -/
def shortenedHeader : List Char := "addr=a@example.org; keydata=QUJDR".toList

/-- The last one of five letters is dropped, and what is left is base64 of the octets, but the text
is not. -/
theorem parse_shortenedHeader :
    AutocryptHeader.attributesOf [] (Text.split ';' shortenedHeader) =
        .ok [("addr".toList, "a@example.org".toList), ("keydata".toList, "QUJDR".toList)] ∧
      AutocryptHeader.parse shortenedHeader =
        .ok ⟨"a@example.org", .noPreference, [0x41, 0x42, 0x43]⟩ ∧
      IsEncoding "QUJD".toList [0x41, 0x42, 0x43] ∧ ¬IsEncoding "QUJDR".toList [0x41, 0x42, 0x43] :=
  ⟨by rfl, by rfl, by decide, by decide⟩

end Service

end PgpInspect
