import Loa.Base64Url
import Loa.FileDirectory
import Loa.JsonValue

/-!
# The vault

A journal that the body keeps under a key, and the seal that destroys it when
somebody opens the door without the token.  The functions are programs of system
calls in the vault's directory, one call after another as the code makes them.

The cryptographic primitives come from libraries that are not part of the
repository and are parameters; the Fernet format around them is spelled out.
-/

open RustText FileDirectory

/-- The primitives under the Fernet format. -/
structure Crypto where
  /-- HMAC-SHA256 of a message under a key. -/
  hmac : Bytes → Bytes → Block
  sha256 : Bytes → Block
  /-- What the base64 library says of a text that it refuses. -/
  base64Refusal : Bytes → String
  /-- AES-128-CBC with PKCS7 padding, under a key and an IV. -/
  encryptPadded : Bytes → Bytes → Bytes → Except String Bytes
  decryptPadded : Bytes → Bytes → Bytes → Except String Bytes

/-- A vault: its directory and the libraries it is built on. -/
structure Vault where
  dir : String
  crypto : Crypto
  text : Json.Text

namespace Vault

/-- A program that may stop with an error. -/
abbrev Fallible (α : Type) := ExceptT String (Program Op Reply) α

/-- A system call whose failure ends the program. -/
def orFail {α : Type} (context : String)
    (call : FileProgram (Except OsError α)) : Fallible α :=
  ExceptT.mk do
    match ← call with
    | .ok value => pure (.ok value)
    | .error error => pure (.error (context ++ error.text))

/-- The separator inside the seal. -/
def SEAL_DOMAIN : Bytes := asBytes "fragment"

/-- `Path::with_extension`. -/
def withExtension (name extension : String) : String :=
  let reversed := name.toList.reverse
  let stem := (reversed.dropWhile fun character => character ≠ '.').drop 1
  String.ofList ((if stem = [] then reversed else stem).reverse) ++
    "." ++ extension

/-- Compare without stopping at the first difference. -/
def constantTimeEq (first second : Bytes) : Bool :=
  if first.length ≠ second.length then false
  else
    (first.zip second).foldl (fun diff pair => diff ||| (pair.1 ^^^ pair.2))
      (0 : UInt8) == 0

theorem foldl_diff_eq_zero_iff {first second : Bytes} {diff : UInt8}
    (sameLength : first.length = second.length) :
    (first.zip second).foldl (fun diff pair => diff ||| (pair.1 ^^^ pair.2))
        diff = 0 ↔
      diff = 0 ∧ first = second := by
  induction first generalizing second diff with
  | nil =>
      cases second with
      | nil => simp
      | cons byte rest => simp at sameLength
  | cons byte rest induction =>
      cases second with
      | nil => simp at sameLength
      | cons other others =>
          simp only [List.length_cons, Nat.add_right_cancel_iff] at sameLength
          rw [List.zip_cons_cons, List.foldl_cons, induction sameLength,
            UInt8.or_eq_zero_iff, UInt8.xor_eq_zero_iff, List.cons.injEq]
          tauto

theorem constantTimeEq_iff (first second : Bytes) :
    constantTimeEq first second = true ↔ first = second := by
  unfold constantTimeEq
  split
  · rename_i differ
    constructor
    · intro impossible
      cases impossible
    · rintro rfl
      exact absurd rfl differ
  · rename_i same
    rw [beq_iff_eq, foldl_diff_eq_zero_iff (not_not.mp same)]
    simp

/-- The padding of base64, off the end. -/
def stripPad (bytes : Bytes) : Bytes :=
  (bytes.reverse.dropWhile fun byte => byte = 61).reverse

/-- The eight big-endian bytes of `value as u64`. -/
def beU64 (value : F64) : Bytes :=
  let whole := min (RustFloat.truncate value).toNat (2 ^ 64 - 1)
  [56, 48, 40, 32, 24, 16, 8, 0].map fun shift =>
    UInt8.ofNat (whole >>> shift)

/-- Thirty-two bytes of randomness. -/
def rand32 : Fallible Block :=
  orFail "getrandom: " Os.random

variable (v : Vault)

/-- A path as the errors spell it. -/
def path (name : String) : String :=
  v.dir ++ "/" ++ name

/-- Write next to the file, then rename over it. -/
def writeMode (name : String) (bytes : Bytes) (mode : Nat) :
    Fallible Unit := do
  let temporary := withExtension name "tmp"
  let file ← orFail ("open " ++ v.path name ++ ": ")
    (Os.openTruncated temporary mode)
  orFail ("write " ++ v.path name ++ ": ") (Os.write file bytes)
  orFail ("sync " ++ v.path name ++ ": ") (Os.sync file)
  orFail ("rename " ++ v.path name ++ ": ") (Os.rename temporary name)

/-- `fs::read_to_string`. -/
def readToString (name : String) : FileProgram (Option String) := do
  match ← Os.read name with
  | .ok bytes => pure (fromUtf8 bytes)
  | .error _ => pure none

/-- `fs::read`, or nothing. -/
def readOrEmpty (name : String) : FileProgram Bytes := do
  match ← Os.read name with
  | .ok bytes => pure bytes
  | .error _ => pure []

/-- The size of a file, or one. -/
def sizeOrOne (name : String) : FileProgram Nat := do
  match ← Os.size name with
  | .ok size => pure size
  | .error _ => pure 1

/-- The signing half and the encrypting half of a key file. -/
def keyHalves (stored : Bytes) : Except String (Bytes × Bytes) :=
  match Base64Url.decode (stripPad stored) with
  | none =>
      .error ("key not base64url: " ++ v.crypto.base64Refusal (stripPad stored))
  | some raw =>
      if raw.length ≠ 32 then
        .error ("fernet key is 32 raw bytes, got " ++ toString raw.length)
      else .ok (raw.take 16, raw.drop 16)

def readKey : Fallible (Bytes × Bytes) := do
  let stored ← orFail "" (Os.read "key.bin")
  ExceptT.mk (pure (v.keyHalves stored))

def fernetEncrypt (plain : Bytes) : Fallible String := do
  let (sign, enc) ← v.readKey
  let draw ← rand32
  let iv := draw.val.take 16
  let now ← ExceptT.lift Os.clock
  let cipher ← ExceptT.mk (pure (v.crypto.encryptPadded enc iv plain))
  let body := 0x80 :: beU64 now ++ iv ++ cipher
  pure (Base64Url.encode (body ++ (v.crypto.hmac sign body).val))

/-- The checks and the cipher of a token under a key, once the token has been
read as bytes. -/
def openToken (sign enc blob : Bytes) : Except String Bytes :=
  let body := blob.take (blob.length - 32)
  let sig := blob.drop (blob.length - 32)
  if !constantTimeEq (v.crypto.hmac sign body).val sig then
    .error "hmac mismatch — token is not ours"
  else
    match v.crypto.decryptPadded enc ((body.drop 9).take 16) (body.drop 25) with
    | .error error => .error ("cipher: " ++ error)
    | .ok plain => .ok plain

/-- The bytes of a token, when it has the shape of one. -/
def tokenBlob (token : String) : Except String Bytes :=
  let stripped :=
    asBytes (trimEndMatches (fun character => character = '=') token)
  match Base64Url.decode stripped with
  | none => .error ("token b64: " ++ v.crypto.base64Refusal stripped)
  | some blob =>
      if blob.length < 57 ∨ blob.head? ≠ some 0x80 then
        .error "not a fernet v1 token"
      else .ok blob

def fernetDecrypt (token : String) : Fallible Bytes := do
  let blob ← ExceptT.mk (pure (v.tokenBlob token))
  let (sign, enc) ← v.readKey
  ExceptT.mk (pure (v.openToken sign enc blob))

/-- The entries in a decrypted journal. -/
def entriesOf (plain : Bytes) : Option (List Json.Value) :=
  match (fromUtf8 plain).map v.text.parse with
  | some (.ok (.array entries)) => some entries
  | _ => none

/-- Load the entries; nothing when the vault is gone. -/
def load : FileProgram (Option (List Json.Value)) := do
  match ← readToString "vault.enc" with
  | none => pure none
  | some token =>
      match ← (v.fernetDecrypt (trim token)).run with
      | .error _ => pure none
      | .ok plain => pure (v.entriesOf plain)

/-- One line of the access log; the line and its end are two writes. -/
def logAccess (event detail : String) : Fallible Unit := do
  let now ← ExceptT.lift Os.clock
  let line := v.text.display (.object
    [("detail", .string detail), ("event", .string event),
      ("ts", .number (.double now))])
  let file ← orFail "open access.log: " (Os.openAppend "access.log" 0o600)
  orFail "write access.log: " (Os.append file (asBytes line))
  orFail "write access.log: " (Os.append file (asBytes "\n"))

/-- The public status: what the body can show about the seal. -/
def writeStatus : Fallible Unit := do
  let enc ← ExceptT.lift (readOrEmpty "vault.enc")
  let sealed ← ExceptT.lift v.load
  let entries ← ExceptT.lift v.load
  let log ← ExceptT.lift (readToString "access.log")
  let marker ← ExceptT.lift (readToString "marker.txt")
  let status : Json.Value := .object
    [("access_count", .ofNat ((log.map fun text => (lines text).length).getD 0)),
      ("entries", .ofNat ((entries.map List.length).getD 0)),
      ("hash",
        if enc.isEmpty then .null
        else .string (hexEncode ((v.crypto.sha256 enc).val.take 8))),
      ("marker", .ofText (marker.map trim)),
      ("sealed", .bool sealed.isSome)]
  v.writeMode "status.json"
    (asBytes (v.text.displayPretty status ++ "\n")) 0o644

/-- Make a file unless it is there. -/
def ensureFile (name : String) (make : Fallible Unit) : Fallible Unit := do
  if ← ExceptT.lift (Os.present name) then pure () else make

/-- Create key material and an empty journal where they are absent. -/
def ensure : Fallible Unit := do
  orFail "vault dir: " Os.createDir
  ensureFile "key.bin" do
    let raw ← rand32
    v.writeMode "key.bin" (asBytes (Base64Url.encode raw.val)) 0o600
  ensureFile "token.bin" do
    let raw ← rand32
    v.writeMode "token.bin" raw.val 0o600
  ensureFile "vault.enc" do
    let token ← v.fernetEncrypt (asBytes "[]")
    v.writeMode "vault.enc" (asBytes token) 0o600
  v.writeStatus

/-- The token that opens the vault; empty when there is none. -/
def presentedToken : FileProgram String := do
  match ← Os.read "token.bin" with
  | .ok bytes =>
      if bytes.length = 32 then
        pure (hexEncode (v.crypto.hmac bytes SEAL_DOMAIN).val)
      else pure ""
  | .error _ => pure ""

def checkToken (presented : String) : FileProgram Bool :=
  if presented = "" then pure false
  else do
    let expected ← v.presentedToken
    pure (constantTimeEq (asBytes presented) (asBytes expected))

def append (entry : String) : Fallible Nat := do
  match ← ExceptT.lift v.load with
  | none => ExceptT.mk (pure (.error "vault gone"))
  | some before =>
      let now ← ExceptT.lift Os.clock
      let entries := before ++
        [.object [("entry", .string entry), ("ts", .number (.double now))]]
      let token ← v.fernetEncrypt (asBytes (v.text.display (.array entries)))
      v.writeMode "vault.enc" (asBytes token) 0o600
      v.logAccess "APPEND" (toString entries.length)
      v.writeStatus
      pure entries.length

/-- The entries and the last thirty lines of the access log; the read is logged
before the words go out. -/
def read : Fallible (List Json.Value × List String) := do
  let before ← ExceptT.lift v.load
  v.logAccess "READ" (toString ((before.map List.length).getD 0))
  match ← ExceptT.lift v.load with
  | none => ExceptT.mk (pure (.error "vault gone"))
  | some entries =>
      let log ← ExceptT.lift (readToString "access.log")
      let tail := ((lines (log.getD "")).reverse.take 30).reverse
      v.writeStatus
      pure (entries, tail)

/-- Remove a file that may be absent. -/
def unlink (name : String) : Fallible Unit :=
  ExceptT.mk do
    match ← Os.remove name with
    | .ok () => pure (.ok ())
    | .error .notFound => pure (.ok ())
    | .error error =>
        pure (.error ("unlink " ++ name ++ ": " ++ error.text))

/-- Destroy the vault: the keys first, then the journal, then the marker. -/
def wipe (reason : String) : Fallible Unit := do
  let size ← ExceptT.lift (sizeOrOne "vault.enc")
  unlink "key.bin"
  unlink "token.bin"
  v.writeMode "vault.enc" (List.replicate size 0) 0o600
  let stamp ← ExceptT.lift Os.stamp
  v.writeMode "marker.txt"
    (asBytes ("SEALED " ++ stamp ++ " / OPENED BY " ++ reason ++
      " / CONTENTS DESTROYED\n")) 0o644
  v.logAccess "WIPED" reason
  v.writeStatus

/-- The status file, when it is at most a second old. -/
def freshStatus : FileProgram (Option String) := do
  match ← Os.age "status.json" with
  | some seconds =>
      if seconds ≤ 1 then readToString "status.json" else pure none
  | none => pure none

/-- The public status, written again only when it is older than a second. -/
def publicStatus : FileProgram Json.Value := do
  let fresh ← freshStatus
  match fresh.map v.text.parse with
  | some (.ok status) => pure status
  | _ =>
      let _ ← v.writeStatus.run
      let written ← readToString "status.json"
      match written.map v.text.parse with
      | some (.ok status) => pure status
      | _ =>
          pure (.object
            [("error", .string "no vault"), ("sealed", .bool false)])

/-- The public status with whether the journal opens and how long it is. -/
def health : FileProgram Json.Value := do
  let entries ← v.load
  let status ← v.publicStatus
  pure ((status.set "sealed" (.bool entries.isSome)).set "entries"
    (.ofNat ((entries.map List.length).getD 0)))

/-- The answer for a vault that cannot be opened. -/
def gone : Json.Value :=
  .object [("ok", .bool false), ("reason", .string "vault gone"),
    ("sealed", .bool false)]

def appendResponse (entry : String) : FileProgram Json.Value := do
  match ← (v.append entry).run with
  | .ok count =>
      pure (.object [("entries", .ofNat count), ("ok", .bool true),
        ("sealed", .bool true)])
  | .error _ => pure gone

def readResponse : FileProgram Json.Value := do
  match ← v.read.run with
  | .ok (entries, accessLog) =>
      pure (.object [("access_log", .array (accessLog.map .string)),
        ("entries", .array entries), ("ok", .bool true)])
  | .error _ => pure gone

end Vault
