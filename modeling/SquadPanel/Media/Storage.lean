import Mathlib.Data.List.Induction
import SquadPanel.Js.Text

/-!
# Storing a media upload

An upload arrives in chunks; its size, its hash and its leading bytes are checked as they come.
How the bytes are cut does not matter: the upload is stored exactly when all of them pass.
-/

namespace SquadPanel.Media

open Js List

inductive MediaUploadMimeType where
  | videoMp4
  | videoWebm
  | imagePng
  | imageJpeg

inductive MediaError where
  | sizeLimitExceeded (maxBytes : Nat)
  | magicByteMismatch (mimeType : MediaUploadMimeType)
  /-- the source failed, as when the client goes away -/
  | source (message : JsString)

structure StoredMediaFile where
  sizeBytes : Nat
  sha256 : JsString

def MAGIC_BYTE_CHECK_LENGTH : Nat := 12

def IMAGE_ONLY_ISOBMFF_BRANDS : List JsString :=
  ["avif", "avis", "heic", "heix", "heim", "heis", "hevc", "hevx", "hevm", "hevs", "mif1",
    "msf1"].map js

/-- `subarray(start, stop).toString('ascii')`, which drops the high bit of every byte. -/
def asciiSlice (start stop : Nat) (header : List UInt8) : JsString :=
  ((header.take stop).drop start).map fun byte => (byte &&& 0x7F).toUInt16

def matchesMagicBytes (mimeType : MediaUploadMimeType) (header : List UInt8) : Bool :=
  match mimeType with
  | .imagePng => header.take 8 = [0x89, 0x50, 0x4E, 0x47, 0x0D, 0x0A, 0x1A, 0x0A]
  | .imageJpeg => header.take 3 = [0xFF, 0xD8, 0xFF]
  | .videoWebm => header.take 4 = [0x1A, 0x45, 0xDF, 0xA3]
  | .videoMp4 => 8 ≤ header.length && asciiSlice 4 8 header = js "ftyp" &&
      !IMAGE_ONLY_ISOBMFF_BRANDS.contains (asciiSlice 8 12 header)

/-- The variables of the loop; the hash and the file hold the bytes they were given. -/
structure Upload where
  sizeBytes : Nat
  headerBuf : List UInt8
  headerChecked : Bool
  rejection : Option MediaError
  hash : List UInt8
  file : List UInt8

variable (mimeType : MediaUploadMimeType) (maxBytes : Nat)

def Upload.write (u : Upload) (chunk : List UInt8) : Upload :=
  { u with hash := u.hash ++ chunk, file := u.file ++ chunk }

/-- The loop body, with a file system that takes every write. -/
def onChunk (u : Upload) (chunk : List UInt8) : Upload :=
  let u := { u with sizeBytes := u.sizeBytes + chunk.length }
  -- the rest of a rejected part is drained
  if u.rejection.isSome then u
  else if maxBytes < u.sizeBytes then { u with rejection := some (.sizeLimitExceeded maxBytes) }
  else if u.headerChecked then u.write chunk
  else
    let u := { u with headerBuf := u.headerBuf ++ chunk }
    if MAGIC_BYTE_CHECK_LENGTH ≤ u.headerBuf.length then
      let u := { u with headerChecked := true }
      if matchesMagicBytes mimeType u.headerBuf then u.write chunk
      else { u with rejection := some (.magicByteMismatch mimeType) }
    else u.write chunk

def receive (chunks : List (List UInt8)) : Upload :=
  chunks.foldl (onChunk mimeType maxBytes) ⟨0, [], false, none, [], []⟩

/-- A source: its chunks, the error it ends with if it fails, and whether it was cut short. -/
structure Source where
  chunks : List (List UInt8)
  failure : Option JsString
  truncated : Bool

/-- The result of the upload and the file that is there afterwards. -/
def storeMediaUpload (digest : List UInt8 → JsString) (source : Source) :
    Except MediaError StoredMediaFile × Option (List UInt8) :=
  let u := receive mimeType maxBytes source.chunks
  let rejection := u.rejection
    <|> (if source.truncated then some (.sizeLimitExceeded maxBytes) else none)
    <|> (if !u.headerChecked && !matchesMagicBytes mimeType u.headerBuf then
      some (.magicByteMismatch mimeType) else none)
  match source.failure.map MediaError.source <|> rejection with
  | some error => (.error error, none)
  | none => (.ok ⟨u.sizeBytes, digest u.hash⟩, some u.file)

/-! ## The checks do not depend on the chunks -/

variable {mimeType maxBytes}

theorem matchesMagicBytes_append {header : List UInt8}
    (hlength : MAGIC_BYTE_CHECK_LENGTH ≤ header.length) (more : List UInt8) :
    matchesMagicBytes mimeType (header ++ more) = matchesMagicBytes mimeType header := by
  have htake {n : Nat} (hn : n ≤ 12) : (header ++ more).take n = header.take n :=
    take_append_of_le_length (Nat.le_trans hn hlength)
  have hshort : 8 ≤ header.length := Nat.le_trans (by decide) hlength
  cases mimeType with
  | videoMp4 => simp [matchesMagicBytes, asciiSlice, htake, hshort, Nat.le_add_right_of_le]
  | _ => simp [matchesMagicBytes, htake]

/-- The bytes so far are rejected whatever follows. -/
def Bad (mimeType : MediaUploadMimeType) (maxBytes : Nat) (bytes : List UInt8) : Prop :=
  maxBytes < bytes.length ∨
    (MAGIC_BYTE_CHECK_LENGTH ≤ bytes.length ∧ matchesMagicBytes mimeType bytes = false)

/-- The states of the loop after `bytes`. -/
inductive Fed (mimeType : MediaUploadMimeType) (maxBytes : Nat) (bytes : List UInt8) :
    Upload → Prop
  | rejected {headerBuf headerChecked error hash file} (hbad : Bad mimeType maxBytes bytes) :
    Fed mimeType maxBytes bytes ⟨bytes.length, headerBuf, headerChecked, some error, hash, file⟩
  | checked {headerBuf} (hmax : bytes.length ≤ maxBytes)
      (hlength : MAGIC_BYTE_CHECK_LENGTH ≤ bytes.length)
      (hmatch : matchesMagicBytes mimeType bytes = true) :
    Fed mimeType maxBytes bytes ⟨bytes.length, headerBuf, true, none, bytes, bytes⟩
  | unchecked (hmax : bytes.length ≤ maxBytes) :
    Fed mimeType maxBytes bytes ⟨bytes.length, bytes, false, none, bytes, bytes⟩

theorem Fed.onChunk {bytes : List UInt8} {u : Upload} (hfed : Fed mimeType maxBytes bytes u)
    (chunk : List UInt8) :
    Fed mimeType maxBytes (bytes ++ chunk) (onChunk mimeType maxBytes u chunk) := by
  have hsize : bytes.length + chunk.length = (bytes ++ chunk).length := length_append.symm
  unfold Media.onChunk
  cases hfed with
  | rejected hbad =>
    simp only [hsize]
    refine .rejected (hbad.imp (fun h => ?_) fun ⟨hlength, hmatch⟩ => ⟨?_, ?_⟩)
    · omega
    · omega
    · rw [matchesMagicBytes_append hlength, hmatch]
  | checked hmax hlength hmatch =>
    simp only [hsize]
    rw [if_neg nofun]
    split
    · next hlarge => exact .rejected (.inl hlarge)
    · next hlarge =>
      refine .checked (Nat.le_of_not_lt hlarge) (by omega) ?_
      rw [matchesMagicBytes_append hlength, hmatch]
  | unchecked hmax =>
    simp only [hsize]
    rw [if_neg nofun]
    split
    · next hlarge => exact .rejected (.inl hlarge)
    · next hlarge =>
      have hmax := Nat.le_of_not_lt hlarge
      rw [if_neg nofun]
      split
      · next hlength =>
        split
        · next hmatch => exact .checked hmax hlength hmatch
        · next hmatch => exact .rejected (.inr ⟨hlength, eq_false_of_ne_true hmatch⟩)
      · exact .unchecked hmax

theorem fed_receive (chunks : List (List UInt8)) :
    Fed mimeType maxBytes chunks.flatten (receive mimeType maxBytes chunks) := by
  induction chunks using reverseRecOn with
  | nil => exact .unchecked (Nat.zero_le _)
  | append_singleton chunks chunk ih =>
    rw [receive, foldl_concat, flatten_concat]
    exact ih.onChunk chunk

/-- An upload is stored exactly when its source ends well and all its bytes pass, and otherwise
an error is thrown and no file is left. -/
theorem storeMediaUpload_eq (digest : List UInt8 → JsString) (source : Source) :
    let bytes := source.chunks.flatten
    let (result, file) := storeMediaUpload mimeType maxBytes digest source
    (result.toOption, file) =
      if source.failure = none ∧ bytes.length ≤ maxBytes ∧ source.truncated = false ∧
          matchesMagicBytes mimeType bytes then (some ⟨bytes.length, digest bytes⟩, some bytes)
      else (none, none) := by
  obtain ⟨chunks, _ | message, truncated⟩ := source
  · have hfed := @fed_receive mimeType maxBytes chunks
    simp only [storeMediaUpload]
    generalize receive mimeType maxBytes chunks = u, chunks.flatten = bytes at hfed ⊢
    cases hfed with
    | rejected hbad =>
      have hnot : ¬(bytes.length ≤ maxBytes ∧ truncated = false ∧
          matchesMagicBytes mimeType bytes = true) := fun h =>
        hbad.elim (Nat.not_lt.2 h.1) fun hmatch => by simp [hmatch.2] at h
      simp [hnot, Except.toOption]
    | checked hmax hlength hmatch =>
      cases truncated <;> simp [hmax, hmatch, Except.toOption]
    | unchecked hmax =>
      cases truncated <;> cases matchesMagicBytes mimeType bytes <;> simp [hmax, Except.toOption]
  · rfl

end SquadPanel.Media
