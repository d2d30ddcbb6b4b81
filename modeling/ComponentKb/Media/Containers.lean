import ComponentKb.Lib.Tiling
import Mathlib.Algebra.Ring.Parity
import Mathlib.Data.Nat.Digits.Defs
import Mathlib.Tactic.Linarith

/-!
# Where uploaded containers end

`detect_magic` (`media/images.py`) and `validate_video_magic` (`media/videos.py`) accept a file when
its first bytes name an allowed container and the container ends where the file ends. Each scanner is
a loop over an offset that only grows; here it is a function of the bytes from the offset on, total
because fewer are left each time.

* `Reads`: segments and scans up to the first `EOI`, for a choice of what scan data are; `Jpeg`,
  `Png`, `WebP` and `IsoFile` are the containers.
* `jpegEnd_iff`: the JPEG scanner reads the bytes of scan data after `0xFF` in pairs.
* **`validateIsoBoxes_iff`**, `pngEnd_iff`: boxes and chunks are read as they are.
* `Hides`: the first marker in scan data after an odd number of fill bytes, which the scanner misses.
* **`detectMagic_iff`**: the checks accept exactly the containers iff what follows such a marker is
  judged alike; `detectMagic_smuggled`: a payload behind one.
-/

namespace ComponentKb.Media

open Lib.Tiling

abbrev Bytes := List UInt8

structure MediaValidationError where
  code : String
  deriving DecidableEq, Repr

abbrev Validation := Except MediaValidationError

/-- `image_container_trailing_or_truncated`. -/
def imageTrailing {α : Type} : Validation α := .error ⟨"image_container_trailing_or_truncated"⟩

/-- `int.from_bytes(data, "little")`. -/
def littleEndian (data : Bytes) : Nat := Nat.ofDigits 256 (data.map UInt8.toNat)

/-- `int.from_bytes(data, "big")`. -/
def bigEndian (data : Bytes) : Nat := littleEndian data.reverse

/-! ## JPEG -/

/-- `0xD0 <= marker <= 0xD7`. -/
def restart (marker : UInt8) : Bool := 0xD0 ≤ marker && marker ≤ 0xD7

/-- The inner loop of `_validate_jpeg_end`: what is left at the marker that ends the scan data. -/
def skipScan (data : Bytes) : Validation Bytes :=
  if data = [] then .ok []
  else
    match _hfound : data.dropWhile (· ≠ 0xFF) with
    | ff :: marker :: rest =>
      if marker = 0x00 ∨ marker = 0xFF ∨ restart marker then skipScan rest
      else .ok (ff :: marker :: rest)
    | _ => imageTrailing
termination_by data.length
decreasing_by
  have := (List.dropWhile_sublist (l := data) (· ≠ 0xFF)).length_le
  rw [_hfound] at this
  simp only [List.length_cons] at this
  omega

theorem skipScan_length {data rest : Bytes} (h : skipScan data = .ok rest) :
    rest.length ≤ data.length := by
  induction hlen : data.length using Nat.strong_induction_on generalizing data with
  | _ n ih =>
    subst hlen
    rw [skipScan] at h
    split at h
    · cases h
      exact Nat.zero_le _
    · split at h
      · rename_i ff marker tail hfound
        have hsub := (List.dropWhile_sublist (l := data) (· ≠ 0xFF)).length_le
        rw [hfound] at hsub
        split at h
        · simp only [List.length_cons] at hsub
          exact (ih tail.length (by omega) h rfl).trans (by omega)
        · cases h
          exact hsub
      · cases h

/-- `_validate_jpeg_end`, from the first marker on. -/
def jpegEnd (data : Bytes) : Validation Unit :=
  -- at the end of the data, or where no marker begins
  if data.head? ≠ some 0xFF then imageTrailing
  else
    match _hfound : data.dropWhile (· = 0xFF) with
    | [] => imageTrailing
    | marker :: rest =>
      if marker = 0xD9 then if rest ≠ [] then imageTrailing else .ok ()
      else if marker = 0x00 ∨ marker = 0xD8 then imageTrailing
      else if marker = 0x01 ∨ restart marker then jpegEnd rest
      else if rest.length < 2 then imageTrailing
      else if bigEndian (rest.take 2) < 2 ∨ rest.length < bigEndian (rest.take 2) then imageTrailing
      else if marker ≠ 0xDA then jpegEnd (rest.drop (bigEndian (rest.take 2)))
      else
        match _hscan : skipScan (rest.drop (bigEndian (rest.take 2))) with
        | .ok left => jpegEnd left
        | .error error => .error error
termination_by data.length
decreasing_by
  all_goals
    have hsub := (List.dropWhile_sublist (l := data) (· = 0xFF)).length_le
    simp only [*, List.length_cons] at hsub
  · omega
  · rw [List.length_drop]
    omega
  · have := skipScan_length _hscan
    rw [List.length_drop] at this
    omega

/-! ## PNG -/

def pngSignature : Bytes := [0x89, 0x50, 0x4E, 0x47, 0x0D, 0x0A, 0x1A, 0x0A]

/-- `b"IEND"`. -/
def iend : Bytes := [0x49, 0x45, 0x4E, 0x44]

/-- The loop of `_validate_png_end` over the chunks: `found_end`. -/
def pngEnd (data : Bytes) : Validation Bool :=
  if data.length < 12 then .ok false
  else
    let length := bigEndian (data.take 4)
    if data.length < 12 + length then imageTrailing
    else if (data.drop 4).take 4 = iend then
      .ok (decide (length = 0) && (data.drop (12 + length)).isEmpty)
    else pngEnd (data.drop (12 + length))
termination_by data.length
decreasing_by
  rw [List.length_drop]
  omega

/-- `detect_magic`. -/
def detectMagic (data : Bytes) : Validation String :=
  if [0xFF, 0xD8, 0xFF] <+: data then do
    jpegEnd (data.drop 2)
    return "image/jpeg"
  else if pngSignature <+: data then do
    let foundEnd ← pngEnd (data.drop 8)
    if ¬ foundEnd then imageTrailing
    return "image/png"
  else if 12 ≤ data.length ∧ data.take 4 = [0x52, 0x49, 0x46, 0x46] ∧
      (data.drop 8).take 4 = [0x57, 0x45, 0x42, 0x50] then do
    let declaredLength := littleEndian ((data.drop 4).take 4) + 8
    if declaredLength ≠ data.length then imageTrailing
    return "image/webp"
  else .error ⟨"image_magic_not_allowed"⟩

/-! ## Video -/

/-- `video_container_trailing_or_truncated`. -/
def videoTrailing {α : Type} : Validation α := .error ⟨"video_container_trailing_or_truncated"⟩

/-- `box_size` and `header_size` of the box that begins here. -/
def boxSizes (data : Bytes) : Validation (Nat × Nat) :=
  let header := data.take 16
  if header.length < 8 then videoTrailing
  else
    let boxSize := bigEndian (header.take 4)
    if boxSize = 1 then
      if header.length < 16 then videoTrailing
      else .ok (bigEndian ((header.drop 8).take 8), 16)
    else if boxSize = 0 then .ok (data.length, 8)
    else .ok (boxSize, 8)

theorem boxSizes_header {data : Bytes} {sizes : Nat × Nat} (h : boxSizes data = .ok sizes) :
    8 ≤ sizes.2 := by
  unfold boxSizes at h
  simp only at h
  split_ifs at h <;> cases h <;> simp

/-- `_validate_iso_boxes`; a loop that ends has reached the size of the file. -/
def validateIsoBoxes (data : Bytes) : Validation Unit :=
  if data = [] then .ok ()
  else
    match _hsizes : boxSizes data with
    | .error error => .error error
    | .ok (boxSize, headerSize) =>
      if boxSize < headerSize ∨ data.length < boxSize then videoTrailing
      else validateIsoBoxes (data.drop boxSize)
termination_by data.length
decreasing_by
  have := boxSizes_header _hsizes
  have := List.length_pos_of_ne_nil ‹¬ data = []›
  rw [List.length_drop]
  simp only at *
  omega

/-- `MAX_VIDEO_BYTES`. -/
def maxVideoBytes : Nat := 256 * 1024 * 1024

/-- `ALLOWED_VIDEO_MIMES`. -/
def allowedVideoMimes : List String := ["video/mp4", "video/quicktime", "video/webm"]

/-- `validate_video_magic`. -/
def validateVideoMagic (data : Bytes) (declaredMime : String) : Validation Unit := do
  if declaredMime ∉ allowedVideoMimes then .error ⟨"video_declared_mime_not_allowed"⟩
  if ¬ (0 < data.length ∧ data.length ≤ maxVideoBytes) then .error ⟨"video_size_not_allowed"⟩
  let header := data.take 12
  if declaredMime = "video/webm" then
    if ¬ [0x1A, 0x45, 0xDF, 0xA3] <+: header then .error ⟨"video_magic_not_allowed"⟩
    return ()
  if header.length < 12 ∨ (header.drop 4).take 4 ≠ [0x66, 0x74, 0x79, 0x70] then
    .error ⟨"video_magic_not_allowed"⟩
  validateIsoBoxes data

/-! ## What a JPEG is -/

/-- Fill bytes. -/
def fill (n : Nat) : Bytes := List.replicate n 0xFF

/-- `TEM` and `RST`, the markers that stand alone. -/
def lone (marker : UInt8) : Bool := marker = 0x01 || restart marker

/-- What scan data have after `0xFF`: a stuffed zero or a restart marker. -/
def stuffed (marker : UInt8) : Bool := marker = 0x00 || restart marker

/-- The markers of segments with parameters, but for `SOS`. -/
def carries (marker : UInt8) : Bool :=
  !lone marker && !decide (marker ∈ [0x00, 0xD8, 0xD9, 0xDA, 0xFF])

/-- The parameters of a segment, which begin with their own length. -/
def Parameters (data : Bytes) : Prop := 2 ≤ data.length ∧ bigEndian (data.take 2) = data.length

/-- What follows `SOI`, or, when `scanning`, what follows a part of scan data: segments and scans up
to the first `EOI`, which is the end. A `datum` is a unit of scan data, and scan data may end where
`stops` allows it. -/
inductive Reads (datum stops : Bytes → Prop) : (scanning : Bool) → Bytes → Prop
  | eoi (n : Nat) : Reads datum stops false (fill (n + 1) ++ [0xD9])
  | lone (n : Nat) {marker : UInt8} {rest : Bytes} : lone marker →
      Reads datum stops false rest → Reads datum stops false (fill (n + 1) ++ marker :: rest)
  | segment (n : Nat) {marker : UInt8} {parameters rest : Bytes} : carries marker →
      Parameters parameters → Reads datum stops false rest →
      Reads datum stops false (fill (n + 1) ++ marker :: (parameters ++ rest))
  | scan (n : Nat) {parameters rest : Bytes} : Parameters parameters →
      Reads datum stops true rest →
      Reads datum stops false (fill (n + 1) ++ 0xDA :: (parameters ++ rest))
  | datum {unit rest : Bytes} : datum unit → Reads datum stops true rest →
      Reads datum stops true (unit ++ rest)
  | leave {rest : Bytes} : stops rest → Reads datum stops false rest →
      Reads datum stops true rest

/-- Scan data: a byte, or a stuffed zero or a restart marker after any number of fill bytes. -/
inductive Datum : Bytes → Prop
  | byte {b : UInt8} : b ≠ 0xFF → Datum [b]
  | stuffed (n : Nat) {marker : UInt8} : stuffed marker → Datum (fill (n + 1) ++ [marker])

/-- **A JPEG container**: `SOI`, segments and scans, and nothing after the first `EOI`. -/
def Jpeg (data : Bytes) : Prop :=
  ∃ rest, data = [0xFF, 0xD8] ++ rest ∧ Reads Datum (fun _ => True) false rest

/-! ## Fill bytes -/

theorem dropWhile_fill (n : Nat) {m : UInt8} (hm : m ≠ 0xFF) (rest : Bytes) :
    (fill n ++ m :: rest).dropWhile (· = 0xFF) = m :: rest := by
  induction n with
  | zero => exact List.dropWhile_cons_of_neg (by simpa using hm)
  | succ n ih =>
    rw [fill, List.replicate_succ, List.cons_append, List.dropWhile_cons_of_pos (by simp)]
    exact ih

theorem dropWhile_fill_only (n : Nat) : (fill n).dropWhile (· = 0xFF) = [] := by
  induction n with
  | zero => rfl
  | succ n ih =>
    rw [fill, List.replicate_succ, List.dropWhile_cons_of_pos (by simp)]
    exact ih

theorem fill_inj {n n' : Nat} {m m' : UInt8} {rest rest' : Bytes} (hm : m ≠ 0xFF) (hm' : m' ≠ 0xFF)
    (h : fill n ++ m :: rest = fill n' ++ m' :: rest') : n = n' ∧ m = m' ∧ rest = rest' := by
  have hrest := congrArg (List.dropWhile (· = 0xFF)) h
  rw [dropWhile_fill n hm, dropWhile_fill n' hm'] at hrest
  obtain ⟨rfl, rfl⟩ := List.cons.inj hrest
  have hlen := congrArg List.length h
  simp only [fill, List.length_append, List.length_replicate] at hlen
  exact ⟨by omega, rfl, rfl⟩

/-- How a text begins: it is empty, begins with another byte, is all fill bytes, or has a byte after
them. -/
theorem fill_cases (data : Bytes) : data = [] ∨ (∃ b rest, b ≠ 0xFF ∧ data = b :: rest) ∨
    (∃ n, data = fill (n + 1)) ∨ ∃ n m rest, m ≠ 0xFF ∧ data = fill (n + 1) ++ m :: rest := by
  induction data with
  | nil => exact Or.inl rfl
  | cons b data ih =>
    by_cases hb : b = 0xFF
    · subst hb
      rcases ih with rfl | ⟨b, rest, hb, rfl⟩ | ⟨n, rfl⟩ | ⟨n, m, rest, hm, rfl⟩
      · exact Or.inr (Or.inr (Or.inl ⟨0, rfl⟩))
      · exact Or.inr (Or.inr (Or.inr ⟨0, b, rest, hb, rfl⟩))
      · exact Or.inr (Or.inr (Or.inl ⟨n + 1, rfl⟩))
      · exact Or.inr (Or.inr (Or.inr ⟨n + 1, m, rest, hm, rfl⟩))
    · exact Or.inr (Or.inl ⟨b, data, hb, rfl⟩)

theorem lone_iff {m : UInt8} : lone m ↔ m = 0x01 ∨ restart m := by
  rw [lone, Bool.or_eq_true, decide_eq_true_eq]

theorem stuffed_iff {m : UInt8} : stuffed m ↔ m = 0x00 ∨ restart m := by
  rw [stuffed, Bool.or_eq_true, decide_eq_true_eq]

theorem carries_iff {m : UInt8} :
    carries m ↔ ¬ lone m ∧ ¬ (m = 0x00 ∨ m = 0xD8) ∧ m ≠ 0xD9 ∧ m ≠ 0xDA ∧ m ≠ 0xFF := by
  simp [carries]
  tauto

theorem lone_ne {m : UInt8} (h : lone m) : m ≠ 0xFF := by
  rintro rfl
  revert h
  decide

theorem stuffed_ne {m : UInt8} (h : stuffed m) : m ≠ 0xFF := by
  rintro rfl
  revert h
  decide

theorem carries_ne {m : UInt8} (h : carries m) : m ≠ 0xFF := by
  rintro rfl
  revert h
  decide

/-! ## Reading a marker -/

section Marker

variable {datum stops : Bytes → Prop} {n : Nat} {m : UInt8} {rest : Bytes}

/-- What parameters tell of the text that they begin. -/
theorem parameters_iff {P : Bytes → Prop} : (∃ p left, Parameters p ∧ rest = p ++ left ∧ P left) ↔
    2 ≤ rest.length ∧ 2 ≤ bigEndian (rest.take 2) ∧ bigEndian (rest.take 2) ≤ rest.length ∧
      P (rest.drop (bigEndian (rest.take 2))) := by
  constructor
  · rintro ⟨p, left, ⟨hlen, hsize⟩, rfl, hleft⟩
    rw [List.take_append_of_le_length hlen, hsize, List.drop_left, List.length_append]
    exact ⟨by omega, hlen, by omega, hleft⟩
  · rintro ⟨hlen, hsize, hle, hleft⟩
    refine ⟨rest.take (bigEndian (rest.take 2)), _, ⟨?_, ?_⟩, (List.take_append_drop _ rest).symm,
      hleft⟩
    · rw [List.length_take]
      omega
    · rw [List.take_take, min_eq_left hsize, List.length_take, min_eq_left hle]

/-- What a marker may be followed by. -/
theorem reads_marker (hm : m ≠ 0xFF) : Reads datum stops false (fill (n + 1) ++ m :: rest) ↔
    (m = 0xD9 ∧ rest = []) ∨ (lone m ∧ Reads datum stops false rest) ∨
    (carries m ∧ ∃ p left, Parameters p ∧ rest = p ++ left ∧ Reads datum stops false left) ∨
    (m = 0xDA ∧ ∃ p left, Parameters p ∧ rest = p ++ left ∧ Reads datum stops true left) := by
  constructor
  · intro h
    generalize hdata : fill (n + 1) ++ m :: rest = data at h
    cases h with
    | eoi n' =>
      obtain ⟨-, rfl, rfl⟩ := fill_inj hm (by decide) hdata
      exact Or.inl ⟨rfl, rfl⟩
    | lone n' hlone hrest =>
      obtain ⟨-, rfl, rfl⟩ := fill_inj hm (lone_ne hlone) hdata
      exact Or.inr (Or.inl ⟨hlone, hrest⟩)
    | segment n' hcarries hp hrest =>
      obtain ⟨-, rfl, rfl⟩ := fill_inj hm (carries_ne hcarries) hdata
      exact Or.inr (Or.inr (Or.inl ⟨hcarries, _, _, hp, rfl, hrest⟩))
    | scan n' hp hrest =>
      obtain ⟨-, rfl, rfl⟩ := fill_inj hm (by decide) hdata
      exact Or.inr (Or.inr (Or.inr ⟨rfl, _, _, hp, rfl, hrest⟩))
  · rintro (⟨rfl, rfl⟩ | ⟨hlone, hrest⟩ | ⟨hcarries, p, left, hp, rfl, hrest⟩ |
      ⟨rfl, p, left, hp, rfl, hrest⟩)
    · exact Reads.eoi n
    · exact Reads.lone n hlone hrest
    · exact Reads.segment n hcarries hp hrest
    · exact Reads.scan n hp hrest

theorem not_reads_nil : ¬ Reads datum stops false [] := by
  intro h
  generalize hdata : ([] : Bytes) = data at h
  cases h <;> simp [fill, List.replicate_succ] at hdata

theorem not_reads_byte (hm : m ≠ 0xFF) : ¬ Reads datum stops false (m :: rest) := by
  intro h
  generalize hdata : m :: rest = data at h
  cases h <;> simp [fill, List.replicate_succ, hm] at hdata

theorem not_reads_fill (n : Nat) : ¬ Reads datum stops false (fill n) := by
  have hno : ∀ (n' : Nat) {m : UInt8} {rest : Bytes}, m ≠ 0xFF → fill n ≠ fill n' ++ m :: rest := by
    intro n' m rest hm heq
    have hrest := congrArg (List.dropWhile (· = 0xFF)) heq
    rw [dropWhile_fill_only, dropWhile_fill n' hm] at hrest
    cases hrest
  intro h
  generalize hdata : fill n = data at h
  cases h with
  | eoi n' => exact hno _ (by decide) hdata
  | lone n' hlone => exact hno _ (lone_ne hlone) hdata
  | segment n' hcarries => exact hno _ (carries_ne hcarries) hdata
  | scan n' => exact hno _ (by decide) hdata

end Marker

/-! ## What the JPEG scanner reads -/

/-- Scan data as `_validate_jpeg_end` passes over them: `0xFF` together with the byte after it. -/
inductive ScanPair : Bytes → Prop
  | byte {b : UInt8} : b ≠ 0xFF → ScanPair [b]
  | pair {marker : UInt8} : stuffed marker ∨ marker = 0xFF → ScanPair [0xFF, marker]

/-- Scan data end at a marker without fill bytes. -/
def Tight (data : Bytes) : Prop :=
  ∃ marker rest, data = 0xFF :: marker :: rest ∧ marker ≠ 0xFF ∧ ¬ stuffed marker

/-- What the scanner accepts after `SOI`, or after a part of scan data. -/
abbrev Scanned : Bool → Bytes → Prop := Reads ScanPair Tight

section Scanner

variable {n : Nat} {m : UInt8} {rest : Bytes}

theorem scanned_nil : ¬ Scanned true [] := by
  intro h
  generalize hdata : ([] : Bytes) = data at h
  cases h with
  | datum hunit => cases hunit <;> simp at hdata
  | leave hstops =>
    obtain ⟨_, _, heq, -⟩ := hstops
    rw [heq] at hdata
    cases hdata

theorem scanned_byte {b : UInt8} (hb : b ≠ 0xFF) :
    Scanned true (b :: rest) ↔ Scanned true rest := by
  refine ⟨fun h => ?_, fun h => Reads.datum (ScanPair.byte hb) h⟩
  generalize hdata : b :: rest = data at h
  cases h with
  | datum hunit hrest =>
    cases hunit with
    | byte =>
      obtain ⟨rfl, rfl⟩ := List.cons.inj hdata
      exact hrest
    | pair => exact absurd (List.cons.inj hdata).1 hb
  | leave hstops =>
    obtain ⟨_, _, rfl, -⟩ := hstops
    exact absurd (List.cons.inj hdata).1 hb

theorem scanned_single : ¬ Scanned true [0xFF] := by
  intro h
  generalize hdata : [(0xFF : UInt8)] = data at h
  cases h with
  | datum hunit =>
    cases hunit with
    | byte hb => exact hb (List.cons.inj hdata).1.symm
    | pair => cases (List.cons.inj hdata).2
  | leave hstops =>
    obtain ⟨_, _, rfl, -⟩ := hstops
    cases (List.cons.inj hdata).2

theorem scanned_pair (hm : stuffed m ∨ m = 0xFF) :
    Scanned true (0xFF :: m :: rest) ↔ Scanned true rest := by
  refine ⟨fun h => ?_, fun h => Reads.datum (ScanPair.pair hm) h⟩
  generalize hdata : 0xFF :: m :: rest = data at h
  cases h with
  | datum hunit hrest =>
    cases hunit with
    | byte hb => exact absurd (List.cons.inj hdata).1.symm hb
    | pair =>
      obtain ⟨rfl, rfl⟩ := List.cons.inj (List.cons.inj hdata).2
      exact hrest
  | leave hstops =>
    obtain ⟨_, _, rfl, hff, hno⟩ := hstops
    obtain ⟨rfl, rfl⟩ := List.cons.inj (List.cons.inj hdata).2
    rcases hm with hm | hm
    · exact absurd hm hno
    · exact absurd hm hff

theorem scanned_tight (hm : m ≠ 0xFF) (hno : ¬ stuffed m) :
    Scanned true (0xFF :: m :: rest) ↔ Scanned false (0xFF :: m :: rest) := by
  refine ⟨fun h => ?_, fun h => Reads.leave ⟨m, rest, rfl, hm, hno⟩ h⟩
  generalize hdata : 0xFF :: m :: rest = data at h
  cases h with
  | datum hunit =>
    cases hunit with
    | byte hb => exact absurd (List.cons.inj hdata).1.symm hb
    | pair hpair =>
      obtain ⟨rfl, -⟩ := List.cons.inj (List.cons.inj hdata).2
      rcases hpair with hpair | hpair
      · exact absurd hpair hno
      · exact absurd hpair hm
  | leave _ hrest => exact hrest

/-- The loop over the segments, from a marker on. -/
theorem jpegEnd_marker (hm : m ≠ 0xFF) : jpegEnd (fill (n + 1) ++ m :: rest) =
    if m = 0xD9 then if rest ≠ [] then imageTrailing else .ok ()
    else if m = 0x00 ∨ m = 0xD8 then imageTrailing
    else if m = 0x01 ∨ restart m then jpegEnd rest
    else if rest.length < 2 then imageTrailing
    else if bigEndian (rest.take 2) < 2 ∨ rest.length < bigEndian (rest.take 2) then imageTrailing
    else if m ≠ 0xDA then jpegEnd (rest.drop (bigEndian (rest.take 2)))
    else skipScan (rest.drop (bigEndian (rest.take 2))) >>= jpegEnd := by
  rw [jpegEnd]
  have hhead : ¬ ((fill (n + 1) ++ m :: rest).head? ≠ some 0xFF) := by
    simp [fill, List.replicate_succ]
  rw [if_neg hhead]
  split
  · rename_i hnone
    rw [dropWhile_fill _ hm] at hnone
    cases hnone
  · rename_i marker left hfound
    rw [dropWhile_fill _ hm] at hfound
    obtain ⟨rfl, rfl⟩ := List.cons.inj hfound
    cases skipScan (rest.drop (bigEndian (rest.take 2))) <;> rfl

theorem jpegEnd_other {data : Bytes} (h : data.head? ≠ some 0xFF ∨ ∃ n, data = fill (n + 1)) :
    jpegEnd data = imageTrailing := by
  rw [jpegEnd]
  rcases h with h | ⟨n, rfl⟩
  · exact if_pos h
  · rw [if_neg (by simp [fill, List.replicate_succ])]
    split
    · rfl
    · rename_i marker left hfound
      rw [dropWhile_fill_only] at hfound
      cases hfound

/-- The loop over the scan data, and what follows them. -/
def scanEnd (data : Bytes) : Validation Unit := skipScan data >>= jpegEnd

theorem scanEnd_byte {b : UInt8} (hb : b ≠ 0xFF) : scanEnd (b :: rest) = scanEnd rest := by
  unfold scanEnd
  rw [skipScan, skipScan, if_neg (List.cons_ne_nil _ _),
    List.dropWhile_cons_of_pos (by simpa using hb)]
  by_cases hrest : rest = []
  · subst hrest
    rw [if_pos rfl]
    exact (jpegEnd_other (Or.inl (by simp))).symm
  · rw [if_neg hrest]

theorem scanEnd_pair (hm : stuffed m ∨ m = 0xFF) : scanEnd (0xFF :: m :: rest) = scanEnd rest := by
  have hskip : m = 0x00 ∨ m = 0xFF ∨ restart m := by
    rw [stuffed_iff] at hm
    tauto
  unfold scanEnd
  rw [skipScan, if_neg (List.cons_ne_nil _ _)]
  split
  · rename_i ff marker tail hfound
    rw [List.dropWhile_cons_of_neg (by simp)] at hfound
    obtain ⟨rfl, rfl⟩ := List.cons.inj (List.cons.inj hfound).2
    rw [if_pos hskip]
  · rename_i hno
    exact absurd (List.dropWhile_cons_of_neg (by simp)) (hno 0xFF m rest)

theorem scanEnd_tight (hm : m ≠ 0xFF) (hno : ¬ stuffed m) :
    scanEnd (0xFF :: m :: rest) = jpegEnd (0xFF :: m :: rest) := by
  have hstop : ¬ (m = 0x00 ∨ m = 0xFF ∨ restart m) := by
    rw [stuffed_iff] at hno
    tauto
  unfold scanEnd
  rw [skipScan, if_neg (List.cons_ne_nil _ _)]
  split
  · rename_i ff marker tail hfound
    rw [List.dropWhile_cons_of_neg (by simp)] at hfound
    obtain ⟨hff, hleft⟩ := List.cons.inj hfound
    obtain ⟨rfl, rfl⟩ := List.cons.inj hleft
    rw [if_neg hstop, ← hff]
    rfl
  · rename_i hother
    exact absurd (List.dropWhile_cons_of_neg (by simp)) (hother 0xFF m rest)

theorem scanEnd_single : scanEnd [0xFF] ≠ .ok () := by decide +kernel

theorem scanEnd_nil : scanEnd [] ≠ .ok () := by decide +kernel

/-- The scan data are read as pairs, if what follows them is read as the loop over segments does. -/
theorem scanEnd_iff {data : Bytes}
    (hsegments : ∀ x : Bytes, x.length ≤ data.length → (jpegEnd x = .ok () ↔ Scanned false x)) :
    scanEnd data = .ok () ↔ Scanned true data := by
  induction hlen : data.length using Nat.strong_induction_on generalizing data with
  | _ n ih =>
    subst hlen
    have hshorter : ∀ x : Bytes, x.length < data.length →
        (scanEnd x = .ok () ↔ Scanned true x) := fun x hx =>
      ih x.length hx (fun y hy => hsegments y (hy.trans hx.le)) rfl
    cases data with
    | nil => exact iff_of_false scanEnd_nil scanned_nil
    | cons b rest =>
      by_cases hb : b = 0xFF
      · subst hb
        cases rest with
        | nil => exact iff_of_false scanEnd_single scanned_single
        | cons m rest =>
          by_cases hpair : stuffed m ∨ m = 0xFF
          · rw [scanEnd_pair hpair, scanned_pair hpair]
            exact hshorter rest (by simp only [List.length_cons]; omega)
          · obtain ⟨hno, hm⟩ := not_or.mp hpair
            rw [scanEnd_tight hm hno, scanned_tight hm hno]
            exact hsegments _ le_rfl
      · rw [scanEnd_byte hb, scanned_byte hb]
        exact hshorter rest (by simp)

/-- **What the JPEG scanner accepts**: fill bytes are passed over before a marker of the header, and
in pairs in scan data. -/
theorem jpegEnd_iff (data : Bytes) : jpegEnd data = .ok () ↔ Scanned false data := by
  induction hlen : data.length using Nat.strong_induction_on generalizing data with
  | _ n ih =>
    subst hlen
    have hshorter : ∀ x : Bytes, x.length < data.length →
        (jpegEnd x = .ok () ↔ Scanned false x) := fun x hx => ih x.length hx x rfl
    rcases fill_cases data with rfl | ⟨b, rest, hb, rfl⟩ | ⟨k, rfl⟩ | ⟨k, m, rest, hm, rfl⟩
    · refine iff_of_false ?_ not_reads_nil
      rw [jpegEnd_other (Or.inl (by simp))]
      exact nofun
    · refine iff_of_false ?_ (not_reads_byte hb)
      rw [jpegEnd_other (Or.inl (by simpa using hb))]
      exact nofun
    · refine iff_of_false ?_ (not_reads_fill _)
      rw [jpegEnd_other (Or.inr ⟨k, rfl⟩)]
      exact nofun
    · have hrest : rest.length < (fill (k + 1) ++ m :: rest).length := by
        simp only [List.length_append, List.length_cons]
        omega
      change _ ↔ Reads ScanPair Tight false _
      rw [jpegEnd_marker hm, reads_marker hm]
      by_cases heoi : m = 0xD9
      · subst heoi
        simp [lone_iff, carries_iff, imageTrailing, restart]
      by_cases hbad : m = 0x00 ∨ m = 0xD8
      · have hlone : ¬ lone m := by
          rcases hbad with rfl | rfl <;> decide
        have hscan : m ≠ 0xDA := by
          rcases hbad with rfl | rfl <;> decide
        rw [if_neg heoi, if_pos hbad, carries_iff]
        simp [heoi, hbad, hlone, hscan, imageTrailing]
      rw [if_neg heoi, if_neg hbad]
      by_cases hlone : lone m
      · have hscan : m ≠ 0xDA := by
          rintro rfl
          revert hlone
          decide
        rw [if_pos (lone_iff.mp hlone), hshorter rest hrest, carries_iff]
        simp [heoi, hlone, hscan]
      rw [if_neg (mt lone_iff.mpr hlone), parameters_iff, parameters_iff, carries_iff]
      by_cases hshort : rest.length < 2
      · rw [if_pos hshort]
        simp [heoi, hlone, hshort, imageTrailing]
      rw [if_neg hshort]
      by_cases hsize : bigEndian (rest.take 2) < 2 ∨ rest.length < bigEndian (rest.take 2)
      · rw [if_pos hsize]
        rcases hsize with hsize | hsize
        · simp [heoi, hlone, hsize, imageTrailing]
        · simp [heoi, hlone, hsize, imageTrailing]
      rw [if_neg hsize]
      have hlong := Nat.le_of_not_lt hshort
      have htwo := Nat.le_of_not_lt (not_or.mp hsize).1
      have hfits := Nat.le_of_not_lt (not_or.mp hsize).2
      have hleft : (rest.drop (bigEndian (rest.take 2))).length ≤ rest.length :=
        (List.drop_sublist _ _).length_le
      by_cases hscan : m = 0xDA
      · rw [if_neg (not_not.mpr hscan)]
        change scanEnd _ = _ ↔ _
        rw [scanEnd_iff fun x hx => hshorter x (by omega)]
        subst hscan
        simp [hlone, hlong, htwo, hfits]
      · rw [if_pos hscan, hshorter _ (by omega)]
        simp [heoi, hbad, hlone, hscan, hm, hlong, htwo, hfits]

end Scanner

/-! ## PNG chunks and ISO boxes -/

/-- A PNG chunk: its length, its type, as many bytes and a checksum. -/
def Chunk (type : Bytes) (data : Bytes) : Prop :=
  12 ≤ data.length ∧ data.length = 12 + bigEndian (data.take 4) ∧ (data.drop 4).take 4 = type

/-- **A PNG container**: the signature and chunks, of which the first `IEND` is empty and the last. -/
def Png (data : Bytes) : Prop :=
  ∃ rest, data = pngSignature ++ rest ∧
    Tiled (fun first _ => ∃ type, type ≠ iend ∧ Chunk type first)
      (fun last => Chunk iend last ∧ last.length = 12) rest

/-- A box of an ISO file, which states its size in four bytes or in eight, or reaches to the end. -/
def Box (first rest : Bytes) : Prop :=
  (8 ≤ first.length ∧ bigEndian (first.take 4) = first.length) ∨
  (16 ≤ first.length ∧ bigEndian (first.take 4) = 1 ∧
    bigEndian ((first.drop 8).take 8) = first.length) ∨
  (8 ≤ first.length ∧ bigEndian (first.take 4) = 0 ∧ rest = [])

/-- **An ISO file**: boxes up to its end. -/
def IsoFile (data : Bytes) : Prop := Tiled Box (· = []) data

/-- The size of the first chunk, but for `IEND`. -/
def chunkSize (data : Bytes) : Option Nat :=
  if 12 ≤ data.length ∧ (data.drop 4).take 4 ≠ iend then some (12 + bigEndian (data.take 4))
  else none

theorem chunkSize_decides :
    HeadDecides (fun first _ => ∃ type, type ≠ iend ∧ Chunk type first) chunkSize := by
  intro first rest
  unfold chunkSize
  constructor
  · rintro ⟨type, hne, hlen, hsize, rfl⟩
    rw [List.drop_append_of_le_length (by omega), List.take_append_of_le_length
      (by rw [List.length_drop]; omega), List.take_append_of_le_length (by omega), ← hsize]
    exact if_pos ⟨by rw [List.length_append]; omega, hne⟩
  · intro h
    split_ifs at h with hhead
    have hsize := Option.some.inj h
    have hlen : 12 ≤ first.length := by omega
    rw [List.drop_append_of_le_length (by omega), List.take_append_of_le_length
      (by rw [List.length_drop]; omega)] at hhead
    rw [List.take_append_of_le_length (by omega)] at hsize
    exact ⟨_, hhead.2, hlen, hsize.symm, rfl⟩

theorem pngEnd_iff (data : Bytes) : pngEnd data = .ok true ↔
    Tiled (fun first _ => ∃ type, type ≠ iend ∧ Chunk type first)
      (fun last => Chunk iend last ∧ last.length = 12) data := by
  induction hlen : data.length using Nat.strong_induction_on generalizing data with
  | _ n ih =>
    subst hlen
    rw [tiled_iff chunkSize_decides, pngEnd, chunkSize]
    by_cases hshort : data.length < 12
    · rw [if_pos hshort]
      refine iff_of_false (by simp) ?_
      rintro (⟨-, hlen⟩ | ⟨n, hn, -⟩)
      · omega
      · rw [if_neg (by omega)] at hn
        cases hn
    rw [if_neg hshort]
    by_cases hover : data.length < 12 + bigEndian (data.take 4)
    · rw [if_pos hover]
      refine iff_of_false (by simp [imageTrailing]) ?_
      rintro (⟨⟨-, hlen, -⟩, -⟩ | ⟨n, hn, hle, -⟩)
      · omega
      · split_ifs at hn
        cases hn
        omega
    rw [if_neg hover]
    by_cases hend : (data.drop 4).take 4 = iend
    · rw [if_pos hend, if_neg (by simp [hend])]
      simp only [Except.ok.injEq, Bool.and_eq_true, decide_eq_true_eq, List.isEmpty_iff,
        List.drop_eq_nil_iff, reduceCtorEq, false_and, exists_false, or_false, Chunk, hend,
        and_true]
      omega
    · rw [if_neg hend, if_pos ⟨by omega, hend⟩,
        ih _ (by rw [List.length_drop]; omega) (data.drop (12 + bigEndian (data.take 4))) rfl]
      have hno : ¬ (Chunk iend data ∧ data.length = 12) := fun h => hend h.1.2.2
      simp [hno, Nat.le_of_not_lt hover]

/-- The size of the first box. -/
def boxSize (data : Bytes) : Option Nat :=
  match boxSizes data with
  | .ok (size, header) => if header ≤ size then some size else none
  | .error _ => none

theorem boxSize_eq (data : Bytes) : boxSize data =
    if data.length < 8 then none
    else if bigEndian (data.take 4) = 1 then
      if 16 ≤ data.length ∧ 16 ≤ bigEndian ((data.drop 8).take 8) then
        some (bigEndian ((data.drop 8).take 8))
      else none
    else if bigEndian (data.take 4) = 0 then some data.length
    else if 8 ≤ bigEndian (data.take 4) then some (bigEndian (data.take 4)) else none := by
  have hfour : (data.take 16).take 4 = data.take 4 := by simp [List.take_take]
  have height : ((data.take 16).drop 8).take 8 = (data.drop 8).take 8 := by
    simp [List.drop_take, List.take_take]
  have hlen : (data.take 16).length = min 16 data.length := List.length_take
  unfold boxSize boxSizes
  simp only [hfour, height, hlen]
  by_cases hshort : data.length < 8
  · rw [if_pos (by omega), if_pos hshort]
    rfl
  rw [if_neg (by omega), if_neg hshort]
  by_cases hone : bigEndian (data.take 4) = 1
  · rw [if_pos hone, if_pos hone]
    by_cases hlong : data.length < 16
    · rw [if_pos (by omega), if_neg (by omega)]
      rfl
    · rw [if_neg (by omega)]
      by_cases hsize : 16 ≤ bigEndian ((data.drop 8).take 8)
      · rw [if_pos ⟨by omega, hsize⟩]
        exact if_pos hsize
      · rw [if_neg fun h => hsize h.2]
        exact if_neg hsize
  rw [if_neg hone, if_neg hone]
  by_cases hzero : bigEndian (data.take 4) = 0
  · rw [if_pos hzero, if_pos hzero]
    exact if_pos (by omega)
  · rw [if_neg hzero, if_neg hzero]

theorem boxSize_decides : HeadDecides Box boxSize := by
  intro first rest
  have hfour : 4 ≤ first.length → (first ++ rest).take 4 = first.take 4 :=
    fun h => List.take_append_of_le_length h
  have height : 16 ≤ first.length →
      ((first ++ rest).drop 8).take 8 = (first.drop 8).take 8 := by
    intro h
    rw [List.drop_append_of_le_length (by omega),
      List.take_append_of_le_length (by rw [List.length_drop]; omega)]
  rw [boxSize_eq, List.length_append]
  constructor
  · rintro (⟨hlen, hsize⟩ | ⟨hlen, hone, hsize⟩ | ⟨hlen, hzero, rfl⟩)
    · rw [hfour (by omega), if_neg (by omega), if_neg (by omega), if_neg (by omega),
        if_pos (by omega), hsize]
    · rw [hfour (by omega), if_neg (by omega), if_pos hone, height hlen, if_pos (by omega), hsize]
    · rw [hfour (by omega), if_neg (by omega), if_neg (by omega), if_pos hzero]
      rfl
  · intro h
    by_cases hshort : first.length + rest.length < 8
    · rw [if_pos hshort] at h
      cases h
    rw [if_neg hshort] at h
    by_cases hone : bigEndian ((first ++ rest).take 4) = 1
    · rw [if_pos hone] at h
      split_ifs at h with hlong
      have hsize := Option.some.inj h
      have hlen : 16 ≤ first.length := by omega
      rw [hfour (by omega)] at hone
      rw [height hlen] at hsize
      exact Or.inr (Or.inl ⟨hlen, hone, hsize⟩)
    rw [if_neg hone] at h
    by_cases hzero : bigEndian ((first ++ rest).take 4) = 0
    · rw [if_pos hzero] at h
      have hall := Option.some.inj h
      have hrest : rest = [] := List.eq_nil_of_length_eq_zero (by omega)
      subst hrest
      rw [List.append_nil] at hzero
      exact Or.inr (Or.inr ⟨by simpa using hshort, hzero, rfl⟩)
    · rw [if_neg hzero] at h
      split_ifs at h with hlen
      have hsize := Option.some.inj h
      have hfirst : 8 ≤ first.length := by omega
      rw [hfour (by omega)] at hsize
      exact Or.inl ⟨hfirst, hsize⟩

/-- **The ISO video check** accepts exactly the files tiled by boxes. -/
theorem validateIsoBoxes_iff (data : Bytes) : validateIsoBoxes data = .ok () ↔ IsoFile data := by
  induction hlen : data.length using Nat.strong_induction_on generalizing data with
  | _ n ih =>
    subst hlen
    rw [IsoFile, tiled_iff boxSize_decides, validateIsoBoxes]
    by_cases hnil : data = []
    · rw [if_pos hnil]
      exact iff_of_true rfl (Or.inl hnil)
    rw [if_neg hnil]
    have hpos := List.length_pos_of_ne_nil hnil
    unfold boxSize
    split
    · rename_i error hsizes
      rw [hsizes]
      simp [hnil]
    · rename_i size header hsizes
      rw [hsizes]
      have hheader := boxSizes_header hsizes
      simp only at hheader
      by_cases hbad : size < header ∨ data.length < size
      · rw [if_pos hbad]
        refine iff_of_false (by simp [videoTrailing]) ?_
        rintro (h | ⟨n, hn, hle, -⟩)
        · exact hnil h
        · simp only at hn
          split_ifs at hn
          cases hn
          omega
      · rw [if_neg hbad, ih _ (by rw [List.length_drop]; omega) (data.drop size) rfl]
        obtain ⟨hsize, hfits⟩ := not_or.mp hbad
        simp [hnil, Nat.le_of_not_lt hsize, Nat.le_of_not_lt hfits, IsoFile]

/-! ## Scan data with fill bytes -/

/-- What a JPEG holds after `SOI`, or after a part of scan data. -/
abbrev Contained : Bool → Bytes → Prop := Reads Datum (fun _ => True)

section Scan

variable {n : Nat} {m : UInt8} {rest : Bytes}

theorem contained_nil : ¬ Contained true [] := by
  intro h
  generalize hdata : ([] : Bytes) = data at h
  cases h with
  | datum hunit => cases hunit <;> simp at hdata
  | leave _ hrest => exact not_reads_nil (hdata ▸ hrest)

theorem contained_byte {b : UInt8} (hb : b ≠ 0xFF) :
    Contained true (b :: rest) ↔ Contained true rest := by
  refine ⟨fun h => ?_, fun h => Reads.datum (Datum.byte hb) h⟩
  generalize hdata : b :: rest = data at h
  cases h with
  | datum hunit hrest =>
    cases hunit with
    | byte =>
      obtain ⟨rfl, rfl⟩ := List.cons.inj hdata
      exact hrest
    | stuffed => exact absurd (List.cons.inj hdata).1 hb
  | leave _ hrest => exact absurd (hdata ▸ hrest) (not_reads_byte hb)

/-- A unit of scan data that begins with fill bytes. -/
theorem datum_fill {unit left : Bytes} (hunit : Datum unit) (hm : m ≠ 0xFF)
    (h : fill (n + 1) ++ m :: rest = unit ++ left) : stuffed m ∧ left = rest := by
  cases hunit with
  | byte hb => exact absurd (List.cons.inj h).1.symm hb
  | stuffed n' hstuffed =>
    rw [List.append_assoc] at h
    obtain ⟨-, rfl, rfl⟩ := fill_inj hm (stuffed_ne hstuffed) h
    exact ⟨hstuffed, rfl⟩

theorem contained_stuffed (hm : stuffed m) :
    Contained true (fill (n + 1) ++ m :: rest) ↔ Contained true rest := by
  have hunit : fill (n + 1) ++ m :: rest = (fill (n + 1) ++ [m]) ++ rest := by simp
  refine ⟨fun h => ?_, fun h => hunit ▸ Reads.datum (Datum.stuffed n hm) h⟩
  generalize hdata : fill (n + 1) ++ m :: rest = data at h
  cases h with
  | datum hunit hrest => exact (datum_fill hunit (stuffed_ne hm) hdata).2 ▸ hrest
  | leave _ hrest =>
    -- a restart marker is read alike before and after the scan data are left
    rw [← hdata] at hrest
    rcases (reads_marker (stuffed_ne hm)).mp hrest with ⟨rfl, -⟩ | ⟨-, hrest⟩ | ⟨hcarries, -⟩ |
      ⟨rfl, -⟩
    · exact absurd hm (by decide)
    · exact Reads.leave trivial hrest
    · obtain ⟨hlone, hbad, -⟩ := carries_iff.mp hcarries
      rw [stuffed_iff] at hm
      rw [lone_iff] at hlone
      tauto
    · exact absurd hm (by decide)

theorem contained_marker (hm : m ≠ 0xFF) (hno : ¬ stuffed m) :
    Contained true (fill (n + 1) ++ m :: rest) ↔ Contained false (fill (n + 1) ++ m :: rest) := by
  refine ⟨fun h => ?_, Reads.leave trivial⟩
  generalize hdata : fill (n + 1) ++ m :: rest = data at h
  cases h with
  | datum hunit => exact absurd (datum_fill hunit hm hdata).1 hno
  | leave _ hrest => exact hrest

theorem not_contained_fill (n : Nat) : ¬ Contained true (fill n) := by
  intro h
  generalize hdata : fill n = data at h
  cases h with
  | datum hunit =>
    rename_i unit left _
    cases hunit with
    | byte hb =>
      cases n with
      | zero => cases hdata
      | succ n => exact hb (List.cons.inj hdata).1.symm
    | stuffed n' hstuffed =>
      have hrest := congrArg (List.dropWhile (· = 0xFF)) hdata
      rw [List.append_assoc, List.singleton_append, dropWhile_fill_only,
        dropWhile_fill _ (stuffed_ne hstuffed)] at hrest
      cases hrest
  | leave _ hrest => exact not_reads_fill n (hdata ▸ hrest)

theorem scanned_two (n : Nat) (rest : Bytes) :
    Scanned true (fill (n + 2) ++ rest) ↔ Scanned true (fill n ++ rest) :=
  scanned_pair (Or.inr rfl)

/-- Fill bytes are read in pairs. -/
theorem scanned_twice (n k : Nat) (rest : Bytes) :
    Scanned true (fill (n + 2 * k) ++ rest) ↔ Scanned true (fill n ++ rest) := by
  induction k with
  | zero => rfl
  | succ k ih =>
    rw [← ih]
    exact scanned_two (n + 2 * k) rest

theorem scanned_stuffed (hm : stuffed m) :
    Scanned true (fill n ++ m :: rest) ↔ Scanned true rest := by
  rcases Nat.even_or_odd' n with ⟨k, rfl | rfl⟩
  · rw [← Nat.zero_add (2 * k), scanned_twice]
    exact scanned_byte (stuffed_ne hm)
  · rw [Nat.add_comm, scanned_twice]
    exact scanned_pair (Or.inl hm)

/-- A marker after an even number of fill bytes is met. -/
theorem scanned_odd (k : Nat) (hm : m ≠ 0xFF) (hno : ¬ stuffed m) :
    Scanned true (fill (2 * k + 1) ++ m :: rest) ↔
      Scanned false (fill (2 * k + 1) ++ m :: rest) := by
  have hone : Scanned false (fill (2 * k + 1) ++ m :: rest) ↔ Scanned false (0xFF :: m :: rest) :=
    (reads_marker hm).trans (reads_marker (n := 0) hm).symm
  rw [hone, Nat.add_comm, scanned_twice]
  exact scanned_tight hm hno

/-- A marker after an odd number of fill bytes is passed over. -/
theorem scanned_even (k : Nat) (hm : m ≠ 0xFF) :
    Scanned true (fill (2 * k + 2) ++ m :: rest) ↔ Scanned true rest := by
  rw [scanned_two, ← Nat.zero_add (2 * k), scanned_twice]
  exact scanned_byte hm

theorem not_scanned_fill (n : Nat) : ¬ Scanned true (fill n) := by
  rcases Nat.even_or_odd' n with ⟨k, rfl | rfl⟩
  · rw [← List.append_nil (fill (2 * k)), ← Nat.zero_add (2 * k), scanned_twice]
    exact scanned_nil
  · rw [← List.append_nil (fill (2 * k + 1)), Nat.add_comm, scanned_twice]
    exact scanned_single

end Scan

/-! ## Markers that fill bytes hide -/

/-- In the scan data of a text the scanner passes over a marker that stands after an odd number of
fill bytes: `Hides scanning data marker left` is the first one, and what is left after it. -/
inductive Hides : (scanning : Bool) → Bytes → UInt8 → Bytes → Prop
  | here (k : Nat) {m : UInt8} {left : Bytes} : m ≠ 0xFF → ¬ stuffed m →
      Hides true (fill (2 * k + 2) ++ m :: left) m left
  | byte {b m : UInt8} {rest left : Bytes} : b ≠ 0xFF → Hides true rest m left →
      Hides true (b :: rest) m left
  | stuffed (n : Nat) {s m : UInt8} {rest left : Bytes} : stuffed s → Hides true rest m left →
      Hides true (fill (n + 1) ++ s :: rest) m left
  | leave (k : Nat) {s m : UInt8} {rest left : Bytes} : s ≠ 0xFF → ¬ stuffed s →
      Hides false (fill (2 * k + 1) ++ s :: rest) m left →
      Hides true (fill (2 * k + 1) ++ s :: rest) m left
  | lone (n : Nat) {s m : UInt8} {rest left : Bytes} : lone s → Hides false rest m left →
      Hides false (fill (n + 1) ++ s :: rest) m left
  | segment (n : Nat) {s m : UInt8} {parameters rest left : Bytes} : carries s →
      Parameters parameters → Hides false rest m left →
      Hides false (fill (n + 1) ++ s :: (parameters ++ rest)) m left
  | scan (n : Nat) {m : UInt8} {parameters rest left : Bytes} : Parameters parameters →
      Hides true rest m left → Hides false (fill (n + 1) ++ 0xDA :: (parameters ++ rest)) m left

section Compare

variable {datum stops : Bytes → Prop}

theorem reads_lone {n : Nat} {m : UInt8} {rest : Bytes} (h : lone m) :
    Reads datum stops false (fill (n + 1) ++ m :: rest) ↔ Reads datum stops false rest := by
  refine ⟨fun hreads => ?_, Reads.lone n h⟩
  rcases (reads_marker (lone_ne h)).mp hreads with ⟨rfl, -⟩ | ⟨-, hrest⟩ | ⟨hcarries, -⟩ | ⟨rfl, -⟩
  · exact absurd h (by decide)
  · exact hrest
  · exact absurd h (carries_iff.mp hcarries).1
  · exact absurd h (by decide)

/-- A text begins with one parameter block at most. -/
theorem parameters_inj {p p' left left' : Bytes} (hp : Parameters p) (hp' : Parameters p')
    (h : p ++ left = p' ++ left') : left = left' := by
  have htake : (p ++ left).take 2 = p.take 2 := List.take_append_of_le_length hp.1
  have hsize : p.length = p'.length := by
    rw [← hp.2, ← hp'.2, ← htake, h, List.take_append_of_le_length hp'.1]
  exact (List.append_inj h hsize).2

theorem reads_segment {n : Nat} {m : UInt8} {p rest : Bytes} (h : carries m) (hp : Parameters p) :
    Reads datum stops false (fill (n + 1) ++ m :: (p ++ rest)) ↔ Reads datum stops false rest := by
  refine ⟨fun hreads => ?_, Reads.segment n h hp⟩
  obtain ⟨hlone, -, heoi, hscan, -⟩ := carries_iff.mp h
  rcases (reads_marker (carries_ne h)).mp hreads with ⟨hm, -⟩ | ⟨hm, -⟩ |
    ⟨-, p', left, hp', heq, hleft⟩ | ⟨hm, -⟩
  · exact absurd hm heoi
  · exact absurd hm hlone
  · exact parameters_inj hp hp' heq ▸ hleft
  · exact absurd hm hscan

theorem reads_scan {n : Nat} {p rest : Bytes} (hp : Parameters p) :
    Reads datum stops false (fill (n + 1) ++ 0xDA :: (p ++ rest)) ↔
      Reads datum stops true rest := by
  refine ⟨fun hreads => ?_, Reads.scan n hp⟩
  rcases (reads_marker (by decide)).mp hreads with ⟨hm, -⟩ | ⟨hm, -⟩ | ⟨hm, -⟩ |
    ⟨-, p', left, hp', heq, hleft⟩
  · exact absurd hm (by decide)
  · exact absurd hm (by decide)
  · exact absurd hm (by decide)
  · exact parameters_inj hp hp' heq ▸ hleft

variable {scanning : Bool} {data left : Bytes} {m : UInt8}

/-- Up to a hidden marker there is one way to read, and there a container goes on with it. -/
theorem Hides.contained (h : Hides scanning data m left) :
    Contained scanning data ↔ Contained false (0xFF :: m :: left) := by
  induction h with
  | here k hm hno =>
    exact (contained_marker hm hno).trans
      ((reads_marker hm).trans (reads_marker (n := 0) hm).symm)
  | byte hb _ ih => exact (contained_byte hb).trans ih
  | stuffed n hs _ ih => exact (contained_stuffed hs).trans ih
  | leave k hs hno _ ih => exact (contained_marker hs hno).trans ih
  | lone n hlone _ ih => exact (reads_lone hlone).trans ih
  | segment n hcarries hp _ ih => exact (reads_segment hcarries hp).trans ih
  | scan n hp _ ih => exact (reads_scan hp).trans ih

/-- The scanner goes on after a hidden marker as if it were scan data. -/
theorem Hides.scanned (h : Hides scanning data m left) :
    Scanned scanning data ↔ Scanned true left := by
  induction h with
  | here k hm _ => exact scanned_even k hm
  | byte hb _ ih => exact (scanned_byte hb).trans ih
  | stuffed n hs _ ih => exact (scanned_stuffed hs).trans ih
  | leave k hs hno _ ih => exact (scanned_odd k hs hno).trans ih
  | lone n hlone _ ih => exact (reads_lone hlone).trans ih
  | segment n hcarries hp _ ih => exact (reads_segment hcarries hp).trans ih
  | scan n hp _ ih => exact (reads_scan hp).trans ih

/-- **Where no marker is hidden, the scanner accepts exactly the containers.** -/
theorem contained_iff_scanned (hnone : ∀ m left, ¬ Hides scanning data m left) :
    Contained scanning data ↔ Scanned scanning data := by
  induction hsize : 2 * data.length + scanning.toNat using Nat.strong_induction_on
    generalizing scanning data with
  | _ size ih =>
    subst hsize
    have hshorter : ∀ (s : Bool) (x : Bytes), x.length < data.length →
        (∀ m left, ¬ Hides s x m left) → (Contained s x ↔ Scanned s x) := by
      intro s x hx hnone
      have hs : s.toNat ≤ 1 := by cases s <;> decide
      exact ih _ (by omega) hnone rfl
    rcases fill_cases data with rfl | ⟨b, rest, hb, rfl⟩ | ⟨k, rfl⟩ | ⟨k, m, rest, hm, rfl⟩
    · cases scanning with
      | false => exact iff_of_false not_reads_nil not_reads_nil
      | true => exact iff_of_false contained_nil scanned_nil
    · cases scanning with
      | false => exact iff_of_false (not_reads_byte hb) (not_reads_byte hb)
      | true =>
        refine (contained_byte hb).trans (Iff.trans ?_ (scanned_byte hb).symm)
        exact hshorter true rest (by simp) fun m left h => hnone m left (Hides.byte hb h)
    · cases scanning with
      | false => exact iff_of_false (not_reads_fill _) (not_reads_fill _)
      | true => exact iff_of_false (not_contained_fill _) (not_scanned_fill _)
    · have hrest : rest.length < (fill (k + 1) ++ m :: rest).length := by
        simp only [List.length_append, List.length_cons]
        omega
      cases scanning with
      | true =>
        by_cases hstuffed : stuffed m
        · refine (contained_stuffed hstuffed).trans (Iff.trans ?_ (scanned_stuffed hstuffed).symm)
          exact hshorter true rest hrest fun m left h => hnone m left (Hides.stuffed k hstuffed h)
        · rcases Nat.even_or_odd' k with ⟨j, rfl | rfl⟩
          · refine (contained_marker hm hstuffed).trans
              (Iff.trans ?_ (scanned_odd j hm hstuffed).symm)
            exact ih _ (by simp) (fun m left h => hnone m left (Hides.leave j hm hstuffed h)) rfl
          · exact absurd (Hides.here j hm hstuffed) (hnone m rest)
      | false =>
        have hparameters : ∀ (s : Bool), (∀ p left, Parameters p → rest = p ++ left →
            ∀ m' left', ¬ Hides s left m' left') →
            ((∃ p left, Parameters p ∧ rest = p ++ left ∧ Contained s left) ↔
              ∃ p left, Parameters p ∧ rest = p ++ left ∧ Scanned s left) := by
          intro s hs
          refine exists_congr fun p => exists_congr fun left => and_congr_right fun hp =>
            and_congr_right fun heq => hshorter s left ?_ (hs p left hp heq)
          have := congrArg List.length heq
          rw [List.length_append] at this
          omega
        refine (reads_marker hm).trans (Iff.trans ?_ (reads_marker hm).symm)
        refine or_congr_right (or_congr ?_ (or_congr ?_ ?_))
        · refine and_congr_right fun hlone => hshorter false rest hrest fun m' left h => ?_
          exact hnone m' left (Hides.lone k hlone h)
        · refine and_congr_right fun hcarries => hparameters false fun p left hp heq m' left' h =>
            ?_
          exact hnone m' left' (heq ▸ Hides.segment k hcarries hp h)
        · refine and_congr_right fun hscan => hparameters true fun p left hp heq m' left' h => ?_
          exact hnone m' left' (heq ▸ hscan ▸ Hides.scan k hp h)

/-- What follows the first hidden marker is judged alike: it completes the container from the marker
on iff it does when the marker is taken for scan data. -/
def Spared (data : Bytes) : Prop :=
  ∀ m left, Hides false data m left →
    (Contained false (0xFF :: m :: left) ↔ Scanned true left)

theorem contained_iff_scanned_iff :
    (Contained false data ↔ Scanned false data) ↔ Spared data := by
  constructor
  · intro h m left hhides
    exact hhides.contained.symm.trans (h.trans hhides.scanned)
  · intro hspared
    by_cases hnone : ∃ m left, Hides false data m left
    · obtain ⟨m, left, hhides⟩ := hnone
      exact hhides.contained.trans ((hspared m left hhides).trans hhides.scanned.symm)
    · exact contained_iff_scanned fun m left h => hnone ⟨m, left, h⟩

end Compare

/-! ## The check of an upload -/

/-- **A WebP container**: a `RIFF` header whose length covers the data. -/
def WebP (data : Bytes) : Prop :=
  12 ≤ data.length ∧ data.take 4 = [0x52, 0x49, 0x46, 0x46] ∧
    (data.drop 8).take 4 = [0x57, 0x45, 0x42, 0x50] ∧
    littleEndian ((data.drop 4).take 4) + 8 = data.length

/-- The data are one container of the type, and nothing else. -/
def Container (data : Bytes) (mime : String) : Prop :=
  (mime = "image/jpeg" ∧ Jpeg data) ∨ (mime = "image/png" ∧ Png data) ∨
    (mime = "image/webp" ∧ WebP data)

section Detect

variable {data : Bytes}

theorem Jpeg.starts (h : Jpeg data) : [0xFF, 0xD8, 0xFF] <+: data := by
  obtain ⟨rest, rfl, hrest⟩ := h
  rcases fill_cases rest with rfl | ⟨b, rest, hb, rfl⟩ | ⟨n, rfl⟩ | ⟨n, m, rest, hm, rfl⟩
  · exact absurd hrest not_reads_nil
  · exact absurd hrest (not_reads_byte hb)
  · exact ⟨fill n, rfl⟩
  · exact ⟨fill n ++ m :: rest, rfl⟩

theorem jpeg_iff (h : [0xFF, 0xD8, 0xFF] <+: data) : Jpeg data ↔ Contained false (data.drop 2) := by
  obtain ⟨rest, rfl⟩ := h
  constructor
  · rintro ⟨rest', heq, hrest⟩
    rw [heq]
    exact hrest
  · exact fun hrest => ⟨_, rfl, hrest⟩

theorem png_iff (h : pngSignature <+: data) : Png data ↔ pngEnd (data.drop 8) = .ok true := by
  obtain ⟨rest, rfl⟩ := h
  rw [pngEnd_iff]
  constructor
  · rintro ⟨rest', heq, hrest⟩
    rw [heq]
    exact hrest
  · exact fun hrest => ⟨_, rfl, hrest⟩

/-- `detect_magic` of a text that begins as a JPEG. -/
theorem detectMagic_jpeg (h : [0xFF, 0xD8, 0xFF] <+: data) (mime : String) :
    detectMagic data = .ok mime ↔ mime = "image/jpeg" ∧ jpegEnd (data.drop 2) = .ok () := by
  unfold detectMagic
  rw [if_pos h]
  cases jpegEnd (data.drop 2) with
  | error error => exact iff_of_false nofun fun h => nomatch h.2
  | ok => exact ⟨fun h => ⟨(Except.ok.inj h).symm, rfl⟩, fun h => congrArg _ h.1.symm⟩

/-- `detect_magic` of a text that does not. -/
theorem detectMagic_other (h : ¬ [0xFF, 0xD8, 0xFF] <+: data) (mime : String) :
    detectMagic data = .ok mime ↔ Container data mime := by
  have hjpeg : ¬ Jpeg data := fun hjpeg => h hjpeg.starts
  unfold detectMagic Container
  rw [if_neg h]
  by_cases hpng : pngSignature <+: data
  · have hwebp : ¬ WebP data := by
      rintro ⟨-, hriff, -⟩
      obtain ⟨rest, rfl⟩ := hpng
      cases hriff
    rw [if_pos hpng, png_iff hpng]
    cases pngEnd (data.drop 8) with
    | error error => exact iff_of_false nofun (by simp [hjpeg, hwebp])
    | ok found =>
      cases found with
      | false => exact iff_of_false nofun (by simp [hjpeg, hwebp])
      | true =>
        refine Iff.trans ⟨fun h => (Except.ok.inj h).symm, fun h => congrArg _ h.symm⟩ ?_
        simp [hjpeg, hwebp]
  · have hno : ¬ Png data := by
      rintro ⟨rest, rfl, -⟩
      exact hpng ⟨rest, rfl⟩
    rw [if_neg hpng]
    by_cases hriff : 12 ≤ data.length ∧ data.take 4 = [0x52, 0x49, 0x46, 0x46] ∧
        (data.drop 8).take 4 = [0x57, 0x45, 0x42, 0x50]
    · rw [if_pos hriff]
      by_cases hlen : littleEndian ((data.drop 4).take 4) + 8 = data.length
      · have hwebp : WebP data := ⟨hriff.1, hriff.2.1, hriff.2.2, hlen⟩
        simp only [hlen, ne_eq, not_true_eq_false, if_false]
        refine Iff.trans ⟨fun h => (Except.ok.inj h).symm, fun h => congrArg _ h.symm⟩ ?_
        simp [hjpeg, hno, hwebp]
      · simp [hjpeg, hno, WebP, hlen, imageTrailing]
    · have hwebp : ¬ WebP data := fun hwebp => hriff ⟨hwebp.1, hwebp.2.1, hwebp.2.2.1⟩
      rw [if_neg hriff]
      simp [hjpeg, hno, hwebp]

/-- **The scanners accept exactly the containers, unless fill bytes hide a marker.** For every byte
string the check of images accepts it as what it is and the check of ISO files accepts the tilings
by boxes, iff, where the first marker in JPEG scan data stands after an odd number of fill bytes, what
follows is judged alike. -/
theorem detectMagic_iff (data : Bytes) :
    ((∀ mime, detectMagic data = .ok mime ↔ Container data mime) ∧
      (validateIsoBoxes data = .ok () ↔ IsoFile data)) ↔
    ([0xFF, 0xD8, 0xFF] <+: data → Spared (data.drop 2)) := by
  rw [and_iff_left (validateIsoBoxes_iff data)]
  by_cases h : [0xFF, 0xD8, 0xFF] <+: data
  · have hpng : ¬ Png data := by
      rintro ⟨rest, rfl, -⟩
      obtain ⟨rest', heq⟩ := h
      cases (List.cons.inj heq).1
    have hwebp : ¬ WebP data := by
      rintro ⟨-, hriff, -⟩
      obtain ⟨rest, rfl⟩ := h
      cases hriff
    have hcontainer : ∀ mime, Container data mime ↔
        mime = "image/jpeg" ∧ Contained false (data.drop 2) := by
      intro mime
      rw [Container, jpeg_iff h, or_iff_left]
      rintro (⟨-, hno⟩ | ⟨-, hno⟩)
      · exact hpng hno
      · exact hwebp hno
    simp only [detectMagic_jpeg h, hcontainer, h, true_imp_iff, ← contained_iff_scanned_iff,
      jpegEnd_iff]
    constructor
    · intro hall
      have hjpeg := hall "image/jpeg"
      simp only [true_and] at hjpeg
      exact hjpeg.symm
    · exact fun hsame mime => and_congr_right fun _ => hsame.symm
  · exact iff_of_true (detectMagic_other h) fun hjpeg => absurd hjpeg h

end Detect

/-- An image that ends after its scan, with a fill byte before `EOI`, and a payload behind it. -/
def smuggled : Bytes :=
  [0xFF, 0xD8, 0xFF, 0xDA, 0x00, 0x02, 0x11, 0xFF, 0xFF, 0xD9, 0x50, 0x4B, 0x03, 0x04, 0xFF, 0xD9]

/-- **A payload behind the end of an image is accepted.** -/
theorem detectMagic_smuggled :
    ¬ ∀ mime, detectMagic smuggled = .ok mime ↔ Container smuggled mime := by
  intro h
  have haccepted : detectMagic smuggled = .ok "image/jpeg" := by decide +kernel
  rcases (h _).mp haccepted with ⟨-, hjpeg⟩ | ⟨hmime, -⟩ | ⟨hmime, -⟩
  · have hrest : Contained true [0x11, 0xFF, 0xFF, 0xD9, 0x50, 0x4B, 0x03, 0x04, 0xFF, 0xD9] :=
      (reads_scan (n := 0) (p := [0x00, 0x02]) ⟨by decide, by decide⟩).mp
        ((jpeg_iff ⟨_, rfl⟩).mp hjpeg)
    -- the scan data end at the first `EOI`, which has a fill byte before it
    have heoi := (contained_marker (n := 1) (m := 0xD9) (by decide) (by decide)).mp
      ((contained_byte (by decide)).mp hrest)
    rcases (reads_marker (by decide)).mp heoi with ⟨-, hend⟩ | ⟨hlone, -⟩ | ⟨hcarries, -⟩ | ⟨hda, -⟩
    · cases hend
    · exact absurd hlone (by decide)
    · exact absurd hcarries (by decide)
    · exact absurd hda (by decide)
  · exact absurd hmime (by decide)
  · exact absurd hmime (by decide)

end ComponentKb.Media
