import ComponentKb.Catalog.Text
import ComponentKb.Lib.Checked
import ComponentKb.Lib.Fractions
import ComponentKb.Media.Containers
import ComponentKb.Media.Job
import Mathlib

/-!
# Videos that are accepted and videos that are stored

`VideoProcessor` (`media/videos.py`) checks an uploaded video, and the rendition made of it, by the
JSON document that `ffprobe` prints (`_parse_probe`); `complete_video_job` (`media/repository.py`)
stores what the documents say in the columns of the asset and of its two variants, under the CHECK
constraints of `media/models.py`. Numbers are exact.

* `parseProbe_ok`: what a document that was accepted states.
* **`storesVideo_iff`**: a video that was accepted can be stored iff its documents state values that
  the columns hold; `storesVideo_fast`: one that cannot.
-/

namespace ComponentKb.Media

open Lib Lib.Fractions Lib.Notation Catalog

/-! ## Documents -/

/-- What `json.loads` returns. -/
inductive JsonValue where
  | null
  | bool (b : Bool)
  | int (n : Int)
  | float (x : Number)
  | str (s : String)
  | list (items : List JsonValue)
  | dict (fields : List (String × JsonValue))

abbrev JsonDict := List (String × JsonValue)

/-- What `_parse_probe` raises: `KeyError`, `TypeError` and `ValueError`, which `probe` catches,
`OverflowError`, which it does not, `MediaToolError` of the tools, and the program's own. -/
inductive ProbeFault where
  | builtin
  | overflow
  | tool
  | validation (error : MediaValidationError)
  deriving DecidableEq, Repr

abbrev Probing := Except ProbeFault

def invalidVideo (code : String) : ProbeFault := .validation ⟨code⟩

/-- `record.get(key)`, which is `None` for a missing key. -/
def get (record : JsonDict) (key : String) : JsonValue :=
  ((record.find? fun field => field.1 = key).map Prod.snd).getD .null

/-- `record[key]`. -/
def item (record : JsonDict) (key : String) : Probing JsonValue :=
  match record.find? fun field => field.1 = key with
  | some field => .ok field.2
  | none => .error .builtin

/-- `bool(value)`. -/
def JsonValue.truthy : JsonValue → Bool
  | null => false
  | bool b => b
  | int n => n ≠ 0
  | float x => x ≠ .finite 0
  | str s => s ≠ ""
  | list items => !items.isEmpty
  | dict fields => !fields.isEmpty

/-- `first or second`. -/
def JsonValue.orElse (first second : JsonValue) : JsonValue := if first.truthy then first else second

/-- How the language reads digits and spaces, and `str` of floats, lists and dictionaries. -/
structure Language where
  unicode : Unicode
  render : JsonValue → String

variable (l : Language)

/-- `str(value)`. -/
def JsonValue.text : JsonValue → String
  | null => "None"
  | bool b => if b then "True" else "False"
  | int n => String.ofList (intText n)
  | str s => s
  | value => l.render value

/-- `float(text)`. -/
def toFloat (text : String) : Probing Number :=
  match readFloat isSpace l.unicode.digit text.toList with
  | some x => .ok x
  | none => .error .builtin

/-- `int(text)`, of at most 4300 digits. -/
def toInt (text : String) : Probing Int :=
  let digits := text.toList.filter fun c => (decimalValue l.unicode.digit c).isSome
  if 4300 < digits.length then .error .builtin
  else
    match readInt isSpace l.unicode.digit text.toList with
    | some n => .ok n
    | none => .error .builtin

/-- `int(value)`. -/
def JsonValue.toInt : JsonValue → Probing Int
  | str s => Media.toInt l s
  | int n => .ok n
  | bool b => .ok b.toInt
  | float (.finite q) => .ok (if q < 0 then ⌈q⌉ else ⌊q⌋)
  | float (.infinite _) => .error .overflow
  | _ => .error .builtin

/-- `float(value)` of a string or a number; an integer must be below `2 ** 1024` when it is rounded. -/
def JsonValue.toFloat : JsonValue → Probing Number
  | str s => Media.toFloat l s
  | int n => if n.natAbs < 2 ^ 1024 - 2 ^ 970 then .ok (.finite n) else .error .overflow
  | bool b => .ok (.finite b.toInt)
  | float x => .ok x
  | _ => .error .builtin

/-- `_fraction`. -/
def fraction (value : String) : Probing Number :=
  let numerator := value.toList.takeWhile (· ≠ '/')
  match value.toList.drop numerator.length with
  | [] => toFloat l value
  | _ :: denominator => do
    let divisor ← toFloat l (String.ofList denominator)
    if divisor = .finite 0 then .error .builtin
    return (← toFloat l (String.ofList numerator)).div divisor

/-- `_fraction(str(value))`. The text of a float is read back as the float; those of the other values
but strings and integers are no numbers. -/
def JsonValue.toFraction : JsonValue → Probing Number
  | str s => fraction l s
  | int n => .ok (.finite n)
  | float x => .ok x
  | _ => .error .builtin

/-! ## `_parse_probe` -/

structure VideoProbe where
  detectedMime : String
  width : Int
  height : Int
  durationMs : Int
  videoCodec : String
  audioCodec : Option String
  frameRate : Number
  deriving DecidableEq

/-- `needle in text`. -/
def contains (needle text : String) : Bool := decide (needle.toList <:+: text.toList)

/-- `_detected_mime`. -/
def detectedMime (formatName : String) (rawFormat : JsonDict) : Probing String :=
  if contains "webm" formatName then .ok "video/webm"
  else if contains "mov" formatName ∨ contains "mp4" formatName then
    match get rawFormat "tags" with
    | .dict tags =>
      let brand := ((tags.find? fun field => field.1 = "major_brand").map
        fun field => field.2.text l).getD ""
      .ok (if strip brand = "qt" then "video/quicktime" else "video/mp4")
    | _ => .ok "video/mp4"
  else .error (invalidVideo "video_container_not_allowed")

/-- The dictionaries of a list. -/
def dicts (items : List JsonValue) : List JsonDict :=
  items.filterMap fun
    | .dict fields => some fields
    | _ => none

def ofType (kind : String) (stream : JsonDict) : Bool :=
  match get stream "codec_type" with
  | .str s => s = kind
  | _ => false

/-- The format, the video stream and the audio stream of a document. -/
def probeStreams (document : JsonValue) : Probing (JsonDict × JsonDict × Option JsonDict) := do
  let record ← match document with
    | .dict fields => .ok fields
    | _ => .error .builtin
  let rawStreams ← item record "streams"
  let rawFormat ← item record "format"
  match rawStreams, rawFormat with
  | .list items, .dict format =>
    let streams := dicts items
    let videoStreams := streams.filter (ofType "video")
    let audioStreams := streams.filter (ofType "audio")
    if streams.length ≠ videoStreams.length + audioStreams.length then
      .error (invalidVideo "video_stream_type_not_allowed")
    else
      match videoStreams, audioStreams with
      | [video], [] => .ok (format, video, none)
      | [video], [audio] => .ok (format, video, some audio)
      | _, _ => .error (invalidVideo "video_stream_count_not_allowed")
  | _, _ => .error .builtin

/-- The frame rate that a video stream states. -/
def statedFrameRate (video : JsonDict) : Probing Number :=
  ((get video "avg_frame_rate").orElse (get video "r_frame_rate")).toFraction l

/-- The duration in seconds that a format or a video stream states. -/
def statedDuration (format video : JsonDict) : Probing Number :=
  ((get format "duration").orElse (get video "duration")).toFloat l

/-- `str(stream["codec_name"])`. -/
def statedCodec (stream : JsonDict) : Probing String := (item stream "codec_name").map (·.text l)

/-- `round(duration * 1000)`. -/
def durationMs : Number → Probing Int
  | .finite q => .ok (roundHalfEven (q * 1000))
  | .infinite _ => .error .overflow
  | .nan => .error .builtin

/-- `str(raw_format.get("format_name", ""))`. -/
def statedFormat (format : JsonDict) : String :=
  ((format.find? fun field => field.1 = "format_name").map fun field => field.2.text l).getD ""

/-- `str(audio_streams[0]["codec_name"]) if audio_streams else None`. -/
def statedAudio : Option JsonDict → Probing (Option String)
  | none => .ok none
  | some stream => (statedCodec l stream).map some

/-- `_parse_probe`. -/
def parseProbe (document : JsonValue) (declaredMime : String) : Probing VideoProbe := do
  let (format, video, audio) ← probeStreams document
  let width ← item video "width" >>= JsonValue.toInt l
  let height ← item video "height" >>= JsonValue.toInt l
  let frameRate ← statedFrameRate l video
  let duration ← statedDuration l format video
  require (¬ (width ≤ 0 ∨ height ≤ 0 ∨ 1920 < width ∨ 1080 < height ∨ frameRate.atMost 0 ∨
    frameRate.above (30 + 1 / 1000) ∨ duration.atMost 0 ∨ duration.above (600 + 1 / 1000)))
    (invalidVideo "video_limits_exceeded")
  let mime ← detectedMime l (statedFormat l format) format
  require (mime = declaredMime) (invalidVideo "video_mime_mismatch")
  let audioCodec ← statedAudio l audio
  let durationMs ← durationMs duration
  let videoCodec ← statedCodec l video
  return {
    detectedMime := mime
    width
    height
    durationMs
    videoCodec
    audioCodec
    frameRate }

/-! ## Transcoding -/

/-- What a tool returned: its exit code, and the document on its output, if there is one. -/
structure CommandResult where
  returncode : Int
  document : Option JsonValue

/-- A check of the program. -/
def validated {α : Type} (x : Validation α) : Probing α := x.mapError .validation

/-- `except (KeyError, TypeError, ValueError)`. -/
def caught {α : Type} (x : Probing α) : Probing α :=
  x.mapError fun
    | .builtin => invalidVideo "video_probe_invalid"
    | fault => fault

/-- `VideoProcessor.probe`, for what the run of `ffprobe` came to. -/
def probe (data : Bytes) (declaredMime : String) (run : Probing CommandResult) :
    Probing VideoProbe := do
  validated (validateVideoMagic data declaredMime)
  let result ← run
  require (result.returncode = 0) (invalidVideo "video_probe_failed")
  let document ← fromSome result.document (invalidVideo "video_probe_invalid")
  caught (parseProbe l document declaredMime)

structure VideoArtifact where
  mime : String
  width : Int
  height : Int
  sizeBytes : Nat
  sha256 : String
  durationMs : Option Int
  videoCodec : Option String
  audioCodec : Option String
  frameRate : Option Number
  deriving DecidableEq

structure ProcessedVideo where
  original : VideoProbe
  originalSizeBytes : Nat
  originalSha256 : String
  rendition : VideoArtifact
  poster : VideoArtifact
  deriving DecidableEq

/-- What the image library finds in a poster. -/
structure DecodedPoster where
  frames : Nat
  width : Nat
  height : Nat
  exif : Bool

/-- The libraries: `sha256(data).hexdigest()` and `Image.open`. -/
structure Libraries where
  digest : Bytes → { s : String // s.length = 64 }
  decode : Bytes → Option DecodedPoster

/-- The files and the runs of the tools in one transcoding. -/
structure Transcoding where
  original : Bytes
  probed : Probing CommandResult
  transcoded : Probing CommandResult
  extracted : Probing CommandResult
  rendition : Bytes
  reprobed : Probing CommandResult
  poster : Bytes

variable (libs : Libraries)

/-- `_validate_poster`. -/
def validatePoster (data : Bytes) : Probing (Nat × Nat) := do
  require (0 < data.length ∧ data.length ≤ 8 * 1024 * 1024) (invalidVideo "video_poster_invalid")
  let mime ← validated (detectMagic data)
  require (mime = "image/webp") (invalidVideo "video_poster_invalid")
  let poster ← fromSome (libs.decode data) (invalidVideo "video_poster_invalid")
  require (¬ (poster.frames ≠ 1 ∨ poster.width = 0 ∨ poster.height = 0 ∨ 1280 < poster.width ∨
    720 < poster.height ∨ poster.exif)) (invalidVideo "video_poster_invalid")
  return (poster.width, poster.height)

/-- `_run_ffmpeg`; its failure is a `MediaToolError`. -/
def runFfmpeg (run : Probing CommandResult) : Probing Unit := do
  let result ← run
  require (result.returncode = 0) .tool

/-- `VideoProcessor.transcode`. -/
def transcode (t : Transcoding) (declaredMime : String) : Probing ProcessedVideo := do
  let originalProbe ← probe l t.original declaredMime t.probed
  runFfmpeg t.transcoded
  runFfmpeg t.extracted
  let renditionProbe ← probe l t.rendition "video/mp4" t.reprobed
  require (renditionProbe.videoCodec = "h264" ∧ renditionProbe.audioCodec ∈ [none, some "aac"])
    (invalidVideo "video_rendition_codec_invalid")
  require (¬ (1280 < renditionProbe.width ∨ 720 < renditionProbe.height))
    (invalidVideo "video_rendition_dimensions_invalid")
  require (0 < t.rendition.length ∧ t.rendition.length ≤ maxVideoBytes)
    (invalidVideo "video_rendition_size_invalid")
  let (width, height) ← validatePoster libs t.poster
  return {
    original := originalProbe
    originalSizeBytes := t.original.length
    originalSha256 := libs.digest t.original
    rendition := {
      mime := "video/mp4"
      width := renditionProbe.width
      height := renditionProbe.height
      sizeBytes := t.rendition.length
      sha256 := libs.digest t.rendition
      durationMs := some renditionProbe.durationMs
      videoCodec := some renditionProbe.videoCodec
      audioCodec := renditionProbe.audioCodec
      frameRate := some renditionProbe.frameRate }
    poster := {
      mime := "image/webp"
      width
      height
      sizeBytes := t.poster.length
      sha256 := libs.digest t.poster
      durationMs := none
      videoCodec := none
      audioCodec := none
      frameRate := none } }

/-! ## Storing -/

/-- A row of `media_variants`, but for its keys. -/
structure VideoVariant extends VideoArtifact where
  variant : String
  deriving DecidableEq

/-- `_variants`. -/
def videoVariants (processed : ProcessedVideo) : List VideoVariant :=
  [{ processed.rendition with variant := "video_720p" }, { processed.poster with variant := "poster" }]

/-- `value > 0` of the database, which orders what is no number above all numbers. -/
def storedPositive : Number → Bool
  | .finite q => 0 < q
  | .infinite negative => !negative
  | .nan => true

/-- What a column of 40 characters holds: no text of the database has the character zero. -/
def fitsCodec (s : String) : Bool := s.length ≤ 40 && !s.toList.contains '\x00'

/-- The CHECK constraints of `media_variants`, and its codec columns. -/
def VideoVariant.check (v : VideoVariant) : Bool :=
  v.variant ∈ ["320w", "800w", "1600w", "video_720p", "poster"] &&
  ((v.variant ∈ ["320w", "800w", "1600w", "poster"] && v.mime = "image/webp") ||
    (v.variant = "video_720p" && v.mime = "video/mp4")) &&
  0 < v.sizeBytes && (0 < v.width && 0 < v.height) && v.sha256.length = 64 &&
  (v.variant ≠ "video_720p" ||
    (v.durationMs.all (0 < ·) && v.videoCodec.all (· = "h264") && v.audioCodec.all (· = "aac") &&
      v.frameRate.all fun rate => storedPositive rate && rate.atMost 30)) &&
  v.videoCodec.all fitsCodec && v.audioCodec.all fitsCodec

/-- `complete_video_job` is committed: the rows meet the CHECK constraints of their tables, and the
codec columns hold their values. No row with a frame rate that is not finite does: it is negative, or
above 30 in the order of the database. -/
def storesVideo (processed : ProcessedVideo) (now : Time) (row : Pair) : Bool :=
  (match processed.original.frameRate with
    | .finite rate =>
      Mapped.check (completeJob (.video processed.original.detectedMime processed.originalSizeBytes
        processed.originalSha256 processed.original.width.toNat processed.original.height.toNat
        processed.original.durationMs.toNat processed.original.videoCodec
        processed.original.audioCodec rate) now row)
    | _ => false) &&
  fitsCodec processed.original.videoCodec && processed.original.audioCodec.all fitsCodec &&
  (videoVariants processed).all VideoVariant.check

/-! ## What an accepted document states -/

variable {l} {libs}

/-- What `_parse_probe` found in a document that it accepted. -/
structure Accepted (l : Language) (document : JsonValue) (declaredMime : String) (p : VideoProbe)
    (format video : JsonDict) (audio : Option JsonDict) (seconds : ℚ) : Prop where
  streams : probeStreams document = .ok (format, video, audio)
  mime : p.detectedMime = declaredMime
  width : 0 < p.width
  height : 0 < p.height
  frameRate : statedFrameRate l video = .ok p.frameRate
  moving : p.frameRate.atMost 0 = false
  slow : p.frameRate.above (30 + 1 / 1000) = false
  duration : statedDuration l format video = .ok (.finite seconds)
  lasting : 0 < seconds
  durationMs : p.durationMs = roundHalfEven (seconds * 1000)
  videoCodec : statedCodec l video = .ok p.videoCodec
  audioCodec : statedAudio l audio = .ok p.audioCodec

/-- A duration within the limits that is rounded is a positive fraction. -/
theorem durationMs_ok {duration : Number} {ms : Int} (hms : durationMs duration = .ok ms)
    (hlasting : ¬ duration.atMost 0) :
    ∃ seconds, duration = .finite seconds ∧ 0 < seconds ∧ ms = roundHalfEven (seconds * 1000) := by
  cases duration with
  | finite seconds =>
    refine ⟨seconds, rfl, ?_, (Except.ok.inj hms).symm⟩
    exact lt_of_not_ge fun hle => hlasting (decide_eq_true hle)
  | infinite => cases hms
  | nan => cases hms

theorem parseProbe_ok {document : JsonValue} {declaredMime : String} {p : VideoProbe}
    (h : parseProbe l document declaredMime = .ok p) :
    ∃ format video audio seconds, Accepted l document declaredMime p format video audio seconds := by
  unfold parseProbe at h
  obtain ⟨⟨format, video, audio⟩, hstreams, h⟩ := bind_eq_ok.mp h
  obtain ⟨width, -, h⟩ := bind_eq_ok.mp h
  obtain ⟨height, -, h⟩ := bind_eq_ok.mp h
  obtain ⟨frameRate, hrate, h⟩ := bind_eq_ok.mp h
  obtain ⟨duration, hduration, h⟩ := bind_eq_ok.mp h
  obtain ⟨hlimits, h⟩ := seq_eq_ok.mp h
  obtain ⟨mime, -, h⟩ := bind_eq_ok.mp h
  obtain ⟨hmime, h⟩ := seq_eq_ok.mp h
  obtain ⟨audioCodec, haudio, h⟩ := bind_eq_ok.mp h
  obtain ⟨ms, hms, h⟩ := bind_eq_ok.mp h
  obtain ⟨videoCodec, hvideo, h⟩ := bind_eq_ok.mp h
  cases h
  rw [require_eq_ok] at hlimits hmime
  simp only [not_or, not_le, not_lt, Bool.not_eq_true] at hlimits
  obtain ⟨hwidth, hheight, -, -, hmoving, hslow, hlasting, -⟩ := hlimits
  obtain ⟨seconds, rfl, hpos, rfl⟩ := durationMs_ok hms (by simp [hlasting])
  exact ⟨format, video, audio, seconds,
    { streams := hstreams
      mime := hmime
      width := hwidth
      height := hheight
      frameRate := hrate
      moving := hmoving
      slow := hslow
      duration := hduration
      lasting := hpos
      durationMs := rfl
      videoCodec := hvideo
      audioCodec := haudio }⟩

/-- **What the columns hold** of a document: a frame rate of at most 30, a duration above half a
millisecond, and codec names of 40 characters. -/
structure Storable (l : Language) (format video : JsonDict) (audio : Option JsonDict) : Prop where
  frameRate : ∃ rate, statedFrameRate l video = .ok (.finite rate) ∧ rate ≤ 30
  duration : ∃ seconds, statedDuration l format video = .ok (.finite seconds) ∧ 1 / 2000 < seconds
  videoCodec : ∃ codec, statedCodec l video = .ok codec ∧ fitsCodec codec
  audioCodec : ∃ codec, statedAudio l audio = .ok codec ∧ codec.all fitsCodec

theorem Accepted.storable_iff {document : JsonValue} {declaredMime : String} {p : VideoProbe}
    {format video : JsonDict} {audio : Option JsonDict} {seconds : ℚ}
    (h : Accepted l document declaredMime p format video audio seconds) :
    Storable l format video audio ↔ (∃ rate, p.frameRate = .finite rate ∧ rate ≤ 30) ∧
      0 < p.durationMs ∧ fitsCodec p.videoCodec ∧ p.audioCodec.all fitsCodec := by
  have hduration : 0 < p.durationMs ↔ 1 / 2000 < seconds := by
    rw [h.durationMs, pos_roundHalfEven]
    constructor <;> intro hlt <;> linarith
  rw [hduration]
  constructor
  · rintro ⟨⟨rate, hrate, hle⟩, ⟨seconds', hseconds, hlt⟩, ⟨codec, hcodec, hfits⟩, audio', haudio,
      hall⟩
    obtain rfl := Number.finite.inj (Except.ok.inj (h.duration.symm.trans hseconds))
    obtain rfl := Except.ok.inj (h.videoCodec.symm.trans hcodec)
    obtain rfl := Except.ok.inj (h.audioCodec.symm.trans haudio)
    exact ⟨⟨rate, Except.ok.inj (h.frameRate.symm.trans hrate), hle⟩, hlt, hfits, hall⟩
  · rintro ⟨⟨rate, hrate, hle⟩, hlt, hfits, hall⟩
    exact ⟨⟨rate, hrate ▸ h.frameRate, hle⟩, ⟨seconds, h.duration, hlt⟩, ⟨_, h.videoCodec, hfits⟩,
      ⟨_, h.audioCodec, hall⟩⟩

/-! ## What a transcoding leaves to store -/

theorem probe_ok {data : Bytes} {declaredMime : String} {run : Probing CommandResult}
    {p : VideoProbe} (h : probe l data declaredMime run = .ok p) :
    validateVideoMagic data declaredMime = .ok () ∧ ∃ result document, run = .ok result ∧
      result.document = some document ∧ parseProbe l document declaredMime = .ok p := by
  unfold probe at h
  obtain ⟨hmagic, h⟩ := seq_eq_ok.mp h
  obtain ⟨result, hrun, h⟩ := bind_eq_ok.mp h
  obtain ⟨-, h⟩ := seq_eq_ok.mp h
  obtain ⟨document, hdocument, h⟩ := bind_eq_ok.mp h
  exact ⟨mapError_eq_ok.mp hmagic, result, document, hrun, fromSome_eq_ok.mp hdocument,
    mapError_eq_ok.mp h⟩

theorem validateVideoMagic_size {data : Bytes} {declaredMime : String}
    (h : validateVideoMagic data declaredMime = .ok ()) :
    0 < data.length ∧ data.length ≤ maxVideoBytes := by
  by_contra hsize
  unfold validateVideoMagic at h
  by_cases hmime : declaredMime ∉ allowedVideoMimes
  · rw [if_pos hmime] at h
    cases h
  · rw [if_neg hmime, if_pos hsize] at h
    cases h

/-- Every document that the run printed, if it is accepted, has values that the columns hold. -/
def PrintsStorable (l : Language) (run : Probing CommandResult) : Prop :=
  ∀ result document format video audio, run = .ok result → result.document = some document →
    probeStreams document = .ok (format, video, audio) → Storable l format video audio

theorem printsStorable_iff {run : Probing CommandResult} {result : CommandResult}
    {document : JsonValue} {declaredMime : String} {p : VideoProbe} (hrun : run = .ok result)
    (hdocument : result.document = some document)
    (h : parseProbe l document declaredMime = .ok p) :
    PrintsStorable l run ↔ (∃ rate, p.frameRate = .finite rate ∧ rate ≤ 30) ∧
      0 < p.durationMs ∧ fitsCodec p.videoCodec ∧ p.audioCodec.all fitsCodec := by
  obtain ⟨format, video, audio, seconds, haccepted⟩ := parseProbe_ok h
  rw [← haccepted.storable_iff]
  constructor
  · exact fun hall => hall result document format video audio hrun hdocument haccepted.streams
  · intro hstorable result' document' format' video' audio' hrun' hdocument' hstreams'
    obtain rfl := Except.ok.inj (hrun.symm.trans hrun')
    obtain rfl := Option.some.inj (hdocument.symm.trans hdocument')
    cases haccepted.streams.symm.trans hstreams'
    exact hstorable

/-- What a transcoding that returned went through. -/
structure Transcoded (l : Language) (t : Transcoding) (declaredMime : String)
    (processed : ProcessedVideo) (rendition : VideoProbe) : Prop where
  original : probe l t.original declaredMime t.probed = .ok processed.original
  reprobed : probe l t.rendition "video/mp4" t.reprobed = .ok rendition
  h264 : rendition.videoCodec = "h264"
  aac : rendition.audioCodec ∈ [none, some "aac"]
  originalSize : processed.originalSizeBytes = t.original.length
  originalDigest : processed.originalSha256.length = 64
  rendition : processed.rendition.mime = "video/mp4" ∧ 0 < processed.rendition.sizeBytes ∧
    processed.rendition.sha256.length = 64 ∧ processed.rendition.width = rendition.width ∧
    processed.rendition.height = rendition.height ∧
    processed.rendition.durationMs = some rendition.durationMs ∧
    processed.rendition.videoCodec = some rendition.videoCodec ∧
    processed.rendition.audioCodec = rendition.audioCodec ∧
    processed.rendition.frameRate = some rendition.frameRate
  poster : processed.poster.mime = "image/webp" ∧ 0 < processed.poster.sizeBytes ∧
    processed.poster.sha256.length = 64 ∧ 0 < processed.poster.width ∧
    0 < processed.poster.height ∧ processed.poster.videoCodec = none ∧
    processed.poster.audioCodec = none

theorem validatePoster_ok {data : Bytes} {size : Nat × Nat}
    (h : validatePoster libs data = .ok size) : 0 < data.length ∧ 0 < size.1 ∧ 0 < size.2 := by
  unfold validatePoster at h
  obtain ⟨hdata, h⟩ := seq_eq_ok.mp h
  obtain ⟨_, -, h⟩ := bind_eq_ok.mp h
  obtain ⟨-, h⟩ := seq_eq_ok.mp h
  obtain ⟨poster, -, h⟩ := bind_eq_ok.mp h
  obtain ⟨hposter, h⟩ := seq_eq_ok.mp h
  cases h
  rw [require_eq_ok] at hdata hposter
  simp only [not_or] at hposter
  exact ⟨hdata.1, Nat.pos_of_ne_zero hposter.2.1, Nat.pos_of_ne_zero hposter.2.2.1⟩

theorem transcode_ok {t : Transcoding} {declaredMime : String} {processed : ProcessedVideo}
    (h : transcode l libs t declaredMime = .ok processed) :
    ∃ rendition, Transcoded l t declaredMime processed rendition := by
  unfold transcode at h
  obtain ⟨original, horiginal, h⟩ := bind_eq_ok.mp h
  obtain ⟨-, h⟩ := seq_eq_ok.mp h
  obtain ⟨-, h⟩ := seq_eq_ok.mp h
  obtain ⟨rendition, hrendition, h⟩ := bind_eq_ok.mp h
  obtain ⟨hcodec, h⟩ := seq_eq_ok.mp h
  obtain ⟨-, h⟩ := seq_eq_ok.mp h
  obtain ⟨hsize, h⟩ := seq_eq_ok.mp h
  obtain ⟨⟨width, height⟩, hposter, h⟩ := bind_eq_ok.mp h
  cases h
  obtain ⟨hdata, hwidth, hheight⟩ := validatePoster_ok hposter
  rw [require_eq_ok] at hcodec hsize
  exact ⟨rendition,
    { original := horiginal
      reprobed := hrendition
      h264 := hcodec.1
      aac := hcodec.2
      originalSize := rfl
      originalDigest := (libs.digest t.original).2
      rendition := ⟨rfl, hsize.1, (libs.digest t.rendition).2, rfl, rfl, rfl, rfl, rfl, rfl⟩
      poster := ⟨rfl, hdata, (libs.digest t.poster).2, by simpa using hwidth, by simpa using hheight,
        rfl, rfl⟩ }⟩

/-- The variants meet their constraints iff the rendition's frame rate and duration do. -/
theorem variants_check {t : Transcoding} {declaredMime : String} {processed : ProcessedVideo}
    {rendition : VideoProbe} (h : Transcoded l t declaredMime processed rendition)
    (hwidth : 0 < rendition.width) (hheight : 0 < rendition.height) :
    (videoVariants processed).all VideoVariant.check ↔ 0 < rendition.durationMs ∧
      storedPositive rendition.frameRate ∧ rendition.frameRate.atMost 30 := by
  obtain ⟨hmime, hsize, hsha, hw, hh, hms, hvideo, haudio, hrate⟩ := h.rendition
  obtain ⟨hmime', hsize', hsha', hw', hh', hvideo', haudio'⟩ := h.poster
  have hcodec : rendition.audioCodec.all (· = "aac") ∧ rendition.audioCodec.all fitsCodec := by
    have haac := h.aac
    rw [List.mem_cons, List.mem_singleton] at haac
    rcases haac with hnone | hsome
    · rw [hnone]
      decide
    · rw [hsome]
      decide
  have hfits : fitsCodec "h264" := by decide
  simp [videoVariants, VideoVariant.check, hmime, hsize, hsha, hw, hh, hms, hvideo, haudio, hrate,
    hmime', hsize', hsha', hw', hh', hvideo', haudio', h.h264, hcodec.1, hcodec.2, hfits, hwidth,
    hheight]

/-- A frame rate within the parser's limits that the database takes is a number up to 30. -/
theorem Accepted.rate_iff {document : JsonValue} {declaredMime : String} {p : VideoProbe}
    {format video : JsonDict} {audio : Option JsonDict} {seconds : ℚ}
    (h : Accepted l document declaredMime p format video audio seconds) :
    (storedPositive p.frameRate ∧ p.frameRate.atMost 30) ↔
      ∃ rate, p.frameRate = .finite rate ∧ rate ≤ 30 := by
  have hmoving := h.moving
  have hslow := h.slow
  cases hrate : p.frameRate with
  | finite rate =>
    rw [hrate] at hmoving
    have hpos : 0 < rate := lt_of_not_ge (of_decide_eq_false hmoving)
    simp [storedPositive, Number.atMost, hpos]
  | infinite negative =>
    rw [hrate] at hmoving hslow
    cases negative
    · exact absurd hslow (by simp [Number.above])
    · exact absurd hmoving (by simp [Number.atMost])
  | nan => simp [Number.atMost]

/-- A completed row that was being processed meets its constraints iff its frame rate and duration
do. -/
theorem completeJob_check {row : Pair} (hkind : row.2.kind = .video)
    (hprocessing : row.2.status = .processing) (hcheck : Mapped.check row) {size width height ms : Nat}
    {mime sha codec : String} {audio : Option String} {rate : ℚ} (hsize : 0 < size)
    (hmax : size ≤ maxVideoBytes) (hsha : sha.length = 64) (hwidth : 0 < width)
    (hheight : 0 < height) (now : Time) :
    Mapped.check (completeJob (.video mime size sha width height ms codec audio rate) now row) ↔
      0 < ms ∧ 0 < rate ∧ rate ≤ 30 := by
  obtain ⟨hjob, hasset⟩ := Bool.and_eq_true_iff.mp hcheck
  -- nothing was cleaned, since the asset is not rejected
  have hclean : row.2.storageCleanedAt.isNone := by
    have := (Bool.and_eq_true_iff.mp hasset).2
    rw [hprocessing] at this
    simpa using this
  have hbounds : (1 ≤ row.1.maxAttempts ∧ row.1.maxAttempts ≤ 10) ∧
      row.1.attempts ≤ row.1.maxAttempts := by
    have := (Bool.and_eq_true_iff.mp hjob).1
    simpa using this
  change (Mapped.check (completeJob _ now row).1 && Mapped.check (completeJob _ now row).2) = true ↔ _
  have hjobCheck : Mapped.check (completeJob
      (.video mime size sha width height ms codec audio rate) now row).1 = true := by
    simp [Mapped.check, completeJob, hbounds]
  have hbytes : 1 ≤ size ∧ size ≤ 268435456 := ⟨hsize, hmax⟩
  rw [hjobCheck, Bool.true_and]
  simp [Mapped.check, completeJob, MediaAsset.readyMetadata, MediaKind.maxBytes, hkind, hclean, hsha,
    hwidth, hheight, hbytes]

/-- **A video that was accepted can be stored iff its two documents state values that the columns
hold.** The limits of the parser are wider than the constraints: it takes frame rates up to 30.001 and
what is no number, durations that round to no millisecond, and codec names of any length. -/
theorem storesVideo_iff {t : Transcoding} {declaredMime : String} {processed : ProcessedVideo}
    (h : transcode l libs t declaredMime = .ok processed) {row : Pair}
    (hkind : row.2.kind = .video) (hprocessing : row.2.status = .processing)
    (hcheck : Mapped.check row) (now : Time) :
    storesVideo processed now row ↔ PrintsStorable l t.probed ∧ PrintsStorable l t.reprobed := by
  obtain ⟨rendition, hdone⟩ := transcode_ok h
  obtain ⟨hmagic, result, document, hrun, hdocument, hparsed⟩ := probe_ok hdone.original
  obtain ⟨-, result', document', hrun', hdocument', hparsed'⟩ := probe_ok hdone.reprobed
  obtain ⟨_, _, _, _, haccepted⟩ := parseProbe_ok hparsed
  obtain ⟨_, _, _, _, haccepted'⟩ := parseProbe_ok hparsed'
  obtain ⟨hpos, hmax⟩ := validateVideoMagic_size hmagic
  rw [printsStorable_iff hrun hdocument hparsed, printsStorable_iff hrun' hdocument' hparsed',
    ← haccepted'.rate_iff]
  have hcodec : fitsCodec rendition.videoCodec ∧ rendition.audioCodec.all fitsCodec := by
    rw [hdone.h264]
    have haac := hdone.aac
    rw [List.mem_cons, List.mem_singleton] at haac
    rcases haac with hnone | hsome
    · rw [hnone]
      decide
    · rw [hsome]
      decide
  have hvariants := variants_check hdone haccepted'.width haccepted'.height
  unfold storesVideo
  rw [Bool.and_eq_true, Bool.and_eq_true, Bool.and_eq_true, hvariants]
  cases hrate : processed.original.frameRate with
  | finite rate =>
    have hmoving := haccepted.moving
    rw [hrate] at hmoving
    have hpositive : 0 < rate := lt_of_not_ge (of_decide_eq_false hmoving)
    simp only [Number.finite.injEq, exists_eq_left']
    rw [completeJob_check hkind hprocessing hcheck (hdone.originalSize ▸ hpos)
      (hdone.originalSize ▸ hmax) hdone.originalDigest (Int.lt_toNat.mpr haccepted.width)
      (Int.lt_toNat.mpr haccepted.height) now, Int.lt_toNat]
    simp only [Nat.cast_zero, hpositive, hcodec.1, hcodec.2, true_and, and_true]
    tauto
  | infinite negative => simp
  | nan => simp

/-! ## Videos that cannot be stored -/

/-- A document of `ffprobe` for a video of ten seconds with a frame rate. -/
def document (frameRate : String) : JsonValue :=
  .dict [
    ("streams", .list [.dict [("codec_name", .str "h264"), ("codec_type", .str "video"),
      ("width", .int 640), ("height", .int 480), ("avg_frame_rate", .str frameRate)]]),
    ("format", .dict [("format_name", .str "mov,mp4,m4a,3gp,3g2,mj2"), ("duration", .str "10.0")])]

def plainLanguage : Language where
  unicode :=
    { nfkc s := s
      casefold s := s
      isAlnum c := c.isAlphanum
      digit _ := none
      le a b := a.toList ≤ b.toList }
  render _ := "{}"

def plainLibraries : Libraries where
  digest _ := ⟨"0123456789abcdef0123456789abcdef0123456789abcdef0123456789abcdef", by decide⟩
  decode _ := some ⟨1, 640, 480, false⟩

/-- One box, and an empty `RIFF` container. -/
def transcoding (frameRate : String) : Transcoding where
  original := [0, 0, 0, 12, 0x66, 0x74, 0x79, 0x70, 0x69, 0x73, 0x6F, 0x6D]
  probed := .ok ⟨0, some (document frameRate)⟩
  transcoded := .ok ⟨0, none⟩
  extracted := .ok ⟨0, none⟩
  rendition := [0, 0, 0, 12, 0x66, 0x74, 0x79, 0x70, 0x69, 0x73, 0x6F, 0x6D]
  reprobed := .ok ⟨0, some (document frameRate)⟩
  poster := [0x52, 0x49, 0x46, 0x46, 4, 0, 0, 0, 0x57, 0x45, 0x42, 0x50]

/-- The rows of a video that is being processed. -/
def processingVideo : Pair :=
  startProcessing
    { kind := .video
      status := .pending
      declaredMime := "video/mp4"
      detectedMime := none
      sizeBytes := none
      sha256 := none
      phash := none
      width := none
      height := none
      durationMs := none
      videoCodec := none
      audioCodec := none
      frameRate := none
      failureCode := none
      uploadExpiresAt := 0
      updatedAt := 0
      storageCleanedAt := none } 3 0

/-- A video of 30000/1001 frames a second states what the columns hold. -/
theorem storesVideo_ntsc : PrintsStorable plainLanguage (transcoding "30000/1001").probed ∧
    PrintsStorable plainLanguage (transcoding "30000/1001").reprobed := by
  have hstored : (transcode plainLanguage plainLibraries (transcoding "30000/1001")
      "video/mp4").toOption.any (fun processed => storesVideo processed 5 processingVideo) := by
    decide +kernel
  cases h : transcode plainLanguage plainLibraries (transcoding "30000/1001") "video/mp4" with
  | error fault =>
    rw [h] at hstored
    exact absurd hstored Bool.false_ne_true
  | ok processed =>
    rw [h] at hstored
    exact (storesVideo_iff h rfl rfl (by decide) 5).mp hstored

/-- **A video of 30.0005 frames a second is accepted, transcoded, and cannot be stored.** -/
theorem storesVideo_fast : ¬ ∀ processed, transcode plainLanguage plainLibraries
    (transcoding "60001/2000") "video/mp4" = .ok processed →
      storesVideo processed 5 processingVideo := by
  intro hall
  have hrefused : (transcode plainLanguage plainLibraries (transcoding "60001/2000")
      "video/mp4").toOption.any (fun processed => !storesVideo processed 5 processingVideo) := by
    decide +kernel
  cases h : transcode plainLanguage plainLibraries (transcoding "60001/2000") "video/mp4" with
  | error fault =>
    rw [h] at hrefused
    exact absurd hrefused Bool.false_ne_true
  | ok processed =>
    rw [h] at hrefused
    change (!storesVideo processed 5 processingVideo) = true at hrefused
    rw [hall processed h] at hrefused
    exact absurd hrefused Bool.false_ne_true

end ComponentKb.Media
