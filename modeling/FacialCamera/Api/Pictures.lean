import FacialCamera.Api.Replies
import FacialCamera.Core.Base64

/-! # The way of a picture

The MacBook answers a picture as base64 in JSON, the app takes the text out and puts it in
the JSON that it sends to the Pi, and the Pi decodes it. The bytes that reach the encoder
are those that the webcam wrote.
-/

namespace FacialCamera.Api

open FacialCamera.Core Backend

/-! ## The texts -/

def b64encode (jpeg : Jpeg) : String := String.ofList (Base64.encode (jpeg.map UInt8.toNat))

/-- `base64.b64decode` of a text; `none` where it raises. -/
def b64decode (text : String) : Option Jpeg :=
  (Base64.decode text.toList).map fun octets => octets.map UInt8.ofNat

theorem b64decode_b64encode (jpeg : Jpeg) : b64decode (b64encode jpeg) = some jpeg := by
  have hoctets : ∀ b ∈ jpeg.map UInt8.toNat, b < 256 := by
    intro b hb
    obtain ⟨byte, _, rfl⟩ := List.mem_map.mp hb
    exact byte.toNat_lt
  rw [b64decode, b64encode, String.toList_ofList, Base64.decode_encode hoctets]
  simp [Function.comp_def]

theorem b64encode_eq_empty {jpeg : Jpeg} : b64encode jpeg = "" ↔ jpeg = [] := by
  constructor
  · intro h
    have hdecoded := b64decode_b64encode jpeg
    rw [h] at hdecoded
    exact (Option.some.inj hdecoded).symm
  · rintro rfl
    rfl

/-! ## From the MacBook to the app -/

def textDict (fields : List (String × String)) : Json :=
  .object (fields.map fun field => (field.1, .string field.2))

/-- The order of Python's texts. -/
def Before (key key' : String) : Prop :=
  List.Lex (· < ·) (key.toList.map Char.toNat) (key'.toList.map Char.toNat)

/-- What Flask is documented to write of a dictionary: a JSON text, with the keys in order. -/
def Jsonifies (jsonify : Json → List UInt8) : Prop :=
  ∀ fields : List (String × String), (fields.map Prod.fst).Pairwise Before →
    Json.parse (jsonify (textDict fields)) = some (textDict fields)

/-- The answer of `get_capture`: its status and its octets. -/
def captureAnswer (jsonify : Json → List UInt8) (angle : Macbook.Angle) :
    Except Macbook.Server.ErrorReply Macbook.Photo → Nat × List UInt8
  | .error e => (e.code, jsonify (textDict [("error", e.error)]))
  | .ok photo =>
      (200, jsonify (textDict [("angle", angle.text), ("imageBase64", b64encode photo.jpeg)]))

/-- `{ angle, imageBase64 }` of what was downloaded; `undefined` is not written. -/
def uploadBody (angle : Macbook.Angle) (downloaded : List UInt8) : List UInt8 :=
  Json.render false (.object (("angle", .string angle.text) ::
    ((Json.parse downloaded).bind (Json.field? "imageBase64")).toList.map fun image =>
      ("imageBase64", image)))

/-! ## From the app to the Pi -/

section Body

-- What Python reads of a number, `none` where it takes the number for false.
variable (number : Numeral → Option Backend.Angle)

/-- `body.get("angle")`, where it is not false. -/
def bodyAngle : Option Json → Option Backend.Angle
  | some (.string text) => if text = "" then none else some (.text text)
  | some (.number n) => number n
  | some (.bool true) => some (.scalar "1")
  | some (.array (_ :: _)) | some (.object (_ :: _)) => some .compound
  | _ => none

/-- `body.get("imageBase64")`, where it is not false, through `b64decode`. -/
def bodyImage : Option Json → Option (Option Jpeg)
  | some (.string text) => if text = "" then none else some (b64decode text)
  | some (.number n) => (number n).map fun _ => none
  | some (.bool true) | some (.array (_ :: _)) | some (.object (_ :: _)) => some none
  | _ => none

def captureBody (fields : List (String × Json)) : ImageBody :=
  ⟨bodyAngle number (Json.field? "angle" (.object fields)),
    bodyImage number (Json.field? "imageBase64" (.object fields))⟩

/-- `await request.json()` reads every JSON object, and the handler its two fields. -/
def ReadsObjects (readJson : List UInt8 → Option ImageBody) : Prop :=
  ∀ body fields, Json.parseStrict body = some (.object fields) →
    readJson body = some (captureBody number fields)

end Body

section Codecs

variable (jsonify : Json → List UInt8) (readJson : List UInt8 → Option ImageBody)

def Codec.withPictures (codec : Codec) : Codec :=
  { codec with
    json := fun angle jpeg =>
      uploadBody angle (captureAnswer jsonify angle (.ok ⟨jpeg, ⟨0, ""⟩⟩)).2
    readJson := readJson }

def Texts.withPictures (texts : Texts) : Texts :=
  { texts with toCodec := texts.toCodec.withPictures jsonify readJson }

end Codecs

/-! ## What arrives -/

section Arrival

variable {codec : Codec} {jsonify : Json → List UInt8} {number : Numeral → Option Backend.Angle}
  {readJson : List UInt8 → Option ImageBody}

theorem uploadBody_capture (hjsonify : Jsonifies jsonify) (angle : Macbook.Angle)
    (photo : Macbook.Photo) :
    uploadBody angle (captureAnswer jsonify angle (.ok photo)).2 =
      Json.render false (textDict [("angle", angle.text),
        ("imageBase64", b64encode photo.jpeg)]) := by
  have hkeys : Before "angle" "imageBase64" := by
    rw [Before]
    exact .rel (by decide)
  rw [uploadBody, captureAnswer, hjsonify _ (by simpa using hkeys)]
  simp [textDict, Json.field?, Json.lookup]

/-- The Pi reads the angle and the bytes that the MacBook has. -/
theorem readJson_upload (hreads : ReadsObjects number readJson) (angle : Macbook.Angle)
    (jpeg : Jpeg) :
    readJson (Json.render false (textDict [("angle", angle.text),
        ("imageBase64", b64encode jpeg)])) =
      some ⟨some (.text angle.text), if jpeg = [] then none else some (some jpeg)⟩ := by
  have hangle : angle.text ≠ "" := by cases angle <;> decide
  rw [textDict, hreads _ _ (Json.parseStrict_render _ _)]
  simp [captureBody, Json.field?, Json.lookup, bodyAngle, bodyImage, hangle, b64encode_eq_empty,
    b64decode_b64encode]

theorem documented_withPictures (hjsonify : Jsonifies jsonify)
    (hreads : ReadsObjects number readJson) (hcodec : codec.Documented) :
    (codec.withPictures jsonify readJson).Documented where
  uuid := hcodec.uuid
  readUuid := hcodec.readUuid
  readInt := hcodec.readInt
  readFloat := hcodec.readFloat
  readBool := hcodec.readBool
  readJson angle jpeg :=
    (congrArg readJson (uploadBody_capture hjsonify angle ⟨jpeg, ⟨0, ""⟩⟩)).trans
      (readJson_upload hreads angle jpeg)

end Arrival

/-! ## The transfer -/

/-- `transferMacbookCaptureToPi` up to its second request; without a picture it throws. -/
def transferRequest (codec : Codec) (platform : List (String × String)) (key : String)
    (m s : Uuid) (angle : Macbook.Angle) (answer : Nat × List UInt8) : Option HttpRequest :=
  if 200 ≤ answer.1 ∧ answer.1 < 300 then
    some { method := "POST"
           path := "/members/" ++ codec.uuid m ++ "/face/enrollment/" ++ codec.uuid s ++
             "/capture-b64"
           query := ""
           headers := ("X-API-Key", key) :: platform
           body := uploadBody angle answer.2 }
  else none

section Transfer

variable (texts : Texts) (jsonify : Json → List UInt8) (readJson : List UInt8 → Option ImageBody)
  (lib : Framework) (platform : List (String × String)) (key : String)

/-- The whole of `transferMacbookCaptureToPi`: how it ends, and the Pi behind it. -/
def transferMacbookCaptureToPi (v : Macbook.Server) (m s : Uuid) (angle : Macbook.Angle)
    (seen : Surroundings) (b : Process) : Outcome × Process :=
  let answer := captureAnswer jsonify angle (v.getCapture angle)
  match transferRequest texts.toCodec platform key m s angle answer with
  | none => (.thrown answer.1, b)
  | some request =>
      let (response, b') := app lib seen request b
      ((ApiCall.transferMacbookCaptureToPi m s angle []).settle
        (texts.withPictures jsonify readJson) response, b')

end Transfer

/-- A capture with the bytes of a picture; an empty one is false to the handler. -/
def pictureUpload (m s : Uuid) (angle : Macbook.Angle) (jpeg : Jpeg) : ApiRequest :=
  .uploadCaptureB64 m s
    (some ⟨some (.text angle.text), if jpeg = [] then none else some (some jpeg)⟩)

theorem admitted_transfer {codec : Codec} {key : String} {m s : Uuid} {angle : Macbook.Angle}
    {jpeg : Jpeg} :
    (ApiCall.transferMacbookCaptureToPi m s angle jpeg).Admitted codec key ↔ key = API_KEY := by
  have hpath : ApiCall.path codec (.transferMacbookCaptureToPi m s angle jpeg) ∉ PUBLIC_PATHS := by
    intro hmem
    have htext : ∀ path ∈ PUBLIC_PATHS, path.toList[1]? ≠ some 'm' := by decide +kernel
    refine htext _ hmem ?_
    simp [ApiCall.path]
  simp [ApiCall.Admitted, hpath, ApiCall.keyed]

variable {texts : Texts} {lib : Framework} {platform : List (String × String)}
  {jsonify : Json → List UInt8} {number : Numeral → Option Backend.Angle}
  {readJson : List UInt8 → Option ImageBody}

/-- Without a picture of the angle on the MacBook the Pi is not asked. With one its handler
gets the angle and the bytes that the webcam wrote, and the app the session that it
returns. -/
theorem transferred (key : String) (hlib : lib.Documented)
    (hroutes : lib.Routes (texts.withPictures jsonify readJson).toCodec)
    (hcors : lib.KeepsAnswers) (hcodec : texts.toCodec.Documented) (hjsonify : Jsonifies jsonify)
    (hreads : ReadsObjects number readJson) (hplatform : Ordinary platform)
    (v : Macbook.Server) (m s : Uuid) (angle : Macbook.Angle) (seen : Surroundings) (b : Process)
    (hnumbers : ∀ photo ∈ v.capturedImages.lookup angle, ∀ body,
      (((pictureUpload m s angle photo.jpeg).handler seen).run exec b).1 = some (.ok body) →
        (texts.withPictures jsonify readJson).Numbers body) :
    transferMacbookCaptureToPi texts jsonify readJson lib platform key v m s angle seen b =
      match v.capturedImages.lookup angle with
      | none => (.thrown 404, b)
      | some photo =>
          if key = API_KEY then
            let (reply, b') := ((pictureUpload m s angle photo.jpeg).handler seen).run exec b
            ((texts.withPictures jsonify readJson).outcome
              (.transferMacbookCaptureToPi m s angle photo.jpeg) reply, b')
          else (.thrown 403, b) := by
  unfold transferMacbookCaptureToPi Macbook.Server.getCapture
  cases hlookup : v.capturedImages.lookup angle with
  | none => rfl
  | some photo =>
      let call : ApiCall := .transferMacbookCaptureToPi m s angle photo.jpeg
      have hdocumented : (texts.withPictures jsonify readJson).toCodec.Documented :=
        documented_withPictures hjsonify hreads hcodec
      have hsent : call.Sent := trivial
      have hrequest : transferRequest texts.toCodec platform key m s angle
          (captureAnswer jsonify angle (.ok photo)) =
            some (call.http (texts.withPictures jsonify readJson).toCodec platform key) := rfl
      have hsettled : call.settle (texts.withPictures jsonify readJson)
          (respond seen call.request b).1 = _ :=
        settle_respond seen b (hnumbers photo hlookup)
      dsimp only
      rw [hrequest]
      dsimp only
      rw [app_call hlib, dispatch_call hlib hroutes hdocumented hplatform hsent]
      by_cases hkey : key = API_KEY
      · rw [if_pos (admitted_transfer.mpr hkey), if_pos hkey]
        refine Prod.ext ?_ (respond_snd seen call.request b)
        show call.settle _ (lib.addCors _ (respond seen call.request b).1) = _
        rw [settle_addCors hcors, hsettled]
        rfl
      · rw [if_neg (mt admitted_transfer.mp hkey), if_neg hkey]
        refine Prod.ext ?_ rfl
        show call.settle _ (lib.addCors _ ⟨403, _, _⟩) = _
        rw [settle_addCors hcors]
        exact settle_error (show 400 ≤ 403 by decide)

def photographed : Macbook.Server :=
  { Macbook.Server.init with capturedImages := [(.left, ⟨[255, 216, 255, 217], ⟨0, "1"⟩⟩)] }

def enrolling : Process :=
  (respond emptyRoom (.startEnrollment 0)
    (respond emptyRoom (.addMember "Ana" "Owner") (.boot false none 0)).2).2

def plainJsonify (j : Json) : List UInt8 := Json.toOctets (Json.dumps true j ++ ['\n'])

theorem jsonifies_plainJsonify : Jsonifies plainJsonify := fun _ _ =>
  Json.parse_toOctets true _ (by simp [Json.isSpace])

def plainReadJson (body : List UInt8) : Option ImageBody :=
  match Json.parseStrict body with
  | some (.object fields) => some (captureBody (fun _ => none) fields)
  | _ => none

theorem readsObjects_plainReadJson : ReadsObjects (fun _ => none) plainReadJson := by
  intro body fields hparse
  rw [plainReadJson, hparse]

theorem transferred_photographed :
    (transferMacbookCaptureToPi plainTexts plainJsonify plainReadJson
        (plainServer (plainCodec.withPictures plainJsonify plainReadJson)) [("accept", "*/*")]
        API_KEY photographed 0 1 .left emptyRoom enrolling).1 =
      .resolved (.session ⟨"1", "0", "capturing", 15, 0, 0,
        "No face detected in left capture. Try again.", "1970-01-01T00:00:00Z", none⟩) := by
  have hplatform : Ordinary [("accept", "*/*")] := by decide +kernel
  have hnumbers : ∀ photo ∈ photographed.capturedImages.lookup .left, ∀ body,
      (((pictureUpload 0 1 .left photo.jpeg).handler emptyRoom).run exec enrolling).1 =
        some (.ok body) → (plainTexts.withPictures plainJsonify plainReadJson).Numbers body := by
    intro photo hphoto body hbody
    cases hphoto
    cases hbody
    rintro row hrow
    cases hrow
    exact ⟨show plainTexts.number (plainTexts.repr 15) = 15 by decide +kernel,
      show plainTexts.number (plainTexts.repr 0) = 0 by decide +kernel,
      show plainTexts.number (plainTexts.repr 0) = 0 by decide +kernel⟩
  have htransferred := transferred API_KEY (documented_plainServer _)
    (routes_plainServer (plainCodec.withPictures plainJsonify plainReadJson))
    ⟨fun _ _ => rfl, fun _ _ => rfl⟩ documented_plainCodec jsonifies_plainJsonify
    readsObjects_plainReadJson hplatform photographed 0 1 .left emptyRoom enrolling hnumbers
  exact (congrArg Prod.fst htransferred).trans (by decide +kernel)

end FacialCamera.Api
