import Loa.RustWords
import Loa.JsonPrinter

/-!
# What the console hears of a refusal

A command of the console is one request to the door over a socket of its own.
The answer is read once, and the status is taken off its first line.
-/

namespace Console

open RustText

/-- A connection: what each call on the socket comes to. -/
structure Sock where
  setWriteTimeout : Nat → Except String Unit
  setReadTimeout : Nat → Except String Unit
  write : String → Except String Unit
  flush : Except String Unit
  read : Nat → Except String Bytes

/-- `TcpStream::connect`, to a host and a port. -/
abbrev Net := String → Nat → Except String Sock

/-- What a door url names. -/
structure Target where
  authority : String
  host : String
  port : Nat
  path : String
  deriving DecidableEq

def u16 (text : String) : Except ParseIntError Nat :=
  fromStrRadix 10 65536 text

def target (url : String) : Except String Target :=
  match stripFront "http://" url with
  | none => .error "door url must be http://host:port/path"
  | some rest =>
      let (authority, path) :=
        match splitOnce '/' rest with
        | some (a, p) => (a, "/" ++ p)
        | none => (rest, "/")
      match rsplitOnce ':' authority with
      | none => .error "door url must name a port"
      | some (host, port) =>
          match u16 port with
          | .error e => .error ("door port: " ++ e.display)
          | .ok port => .ok ⟨authority, host, port, path⟩

def request (door : Target) (body : String) : String :=
  "POST " ++ door.path ++ " HTTP/1.1\r\nHost: " ++ door.authority ++
    "\r\nContent-Type: application/json\r\nContent-Length: " ++
    toString body.utf8ByteSize ++ "\r\nConnection: close\r\n\r\n" ++ body

/-- The status that the console takes off the head of an answer: the third word
of it. -/
def codeOf (head : String) : Nat :=
  (((splitWhitespace head)[2]?).bind fun word => (u16 word).toOption).getD 0

/-- A status as a result: an error from 400 on. -/
def resultOf (code : Nat) : Except String Nat :=
  if 400 ≤ code then .error ("door answered " ++ toString code) else .ok code

/-- The whole client: one request, one read of 128 bytes, one status. -/
def postJson (net : Net) (url body : String) : Except String Nat := do
  let door ← target url
  let sock ← net door.host door.port
  sock.setWriteTimeout 5
  sock.setReadTimeout 5
  sock.write (request door body)
  sock.flush
  let resp ← sock.read 128
  resultOf (codeOf (fromUtf8Lossy resp))

/-- An answer of the door: the status line's code and phrase, and whatever comes
behind that line. -/
structure Response where
  status : Nat
  threeDigits : 100 ≤ status ∧ status < 1000
  reason : Bytes
  behind : Bytes

namespace Response

variable (response : Response)

/-- What every answer starts with. -/
def opening : String :=
  "HTTP/1.1 " ++ toString response.status ++ " "

/-- What comes behind the status code. -/
def phrase : Bytes :=
  response.reason ++ asBytes "\r\n" ++ response.behind

def bytes : Bytes :=
  asBytes response.opening ++ response.phrase

/-- The status code comes once more as the word behind it, in the first bytes of
the answer. -/
def Repeats (count : Nat) : Prop :=
  ∃ word, (splitWhitespace (fromUtf8Lossy (response.phrase.take
      (count - (asBytes response.opening).length)))).head? = some word ∧
    u16 word = .ok response.status

end Response

/-- The socket takes the request, and its one read gives the first bytes of the
answer. -/
structure Serves (sock : Sock) (request : String) (response : Response)
    (count : Nat) : Prop where
  writeTimeout : sock.setWriteTimeout 5 = .ok ()
  readTimeout : sock.setReadTimeout 5 = .ok ()
  write : sock.write request = .ok ()
  flush : sock.flush = .ok ()
  few : count ≤ 128
  read : sock.read 128 = .ok (response.bytes.take count)

theorem resultOf_injective : Function.Injective resultOf := by
  intro first second same
  unfold resultOf at same
  split_ifs at same with refused other other
  · have text := congrArg String.toList (Except.error.inj same)
    simp only [String.toList_append, List.append_cancel_left_eq] at text
    exact Nat.repr_injective (String.toList_inj.mp text)
  · exact Except.ok.inj same

theorem postJson_eq {net : Net} {url body : String} {door : Target} {sock : Sock}
    {response : Response} {count : Nat} (parsed : target url = .ok door)
    (connected : net door.host door.port = .ok sock)
    (serves : Serves sock (request door body) response count) :
    postJson net url body =
      resultOf (codeOf (fromUtf8Lossy (response.bytes.take count))) := by
  unfold postJson
  rw [parsed]
  simp only [bind, Except.bind]
  rw [connected]
  simp only [serves.writeTimeout, serves.readTimeout, serves.write,
    serves.flush, serves.read]

theorem solid_of_digit {character : Char} (digit : character.isDigit) :
    isWhitespace character = false := by
  have bounds : 48 ≤ character.toNat ∧ character.toNat ≤ 57 :=
    Char.isDigit_iff_toNat.mp digit
  obtain ⟨low, high⟩ := bounds
  simp [isWhitespace]
  omega

theorem digit_of_mem_status {status : Nat} {character : Char}
    (member : character ∈ (toString status).toList) : character.isDigit := by
  rw [Nat.toString_eq_repr, Nat.repr, String.toList_ofList] at member
  exact Nat.isDigit_of_mem_toDigits (by decide) (by decide) member

namespace Response

variable (response : Response)

/-- The opening without the blank at its end. -/
theorem opening_toList : response.opening.toList =
    ("HTTP/1.1 ".toList ++ (toString response.status).toList) ++ [' '] := by
  simp [opening]

theorem opening_ascii : ∀ character ∈ response.opening.toList,
    character.toNat < 128 := by
  have version : ∀ character ∈ "HTTP/1.1 ".toList, character.toNat < 128 :=
    Json.Printer.of_all (by decide)
  intro character member
  rw [opening_toList, List.mem_append, List.mem_append] at member
  obtain (fixed | digit) | blank := member
  · exact version character fixed
  · have isDigit := digit_of_mem_status digit
    have bounds : 48 ≤ character.toNat ∧ character.toNat ≤ 57 :=
      Char.isDigit_iff_toNat.mp isDigit
    omega
  · rw [List.mem_singleton.mp blank]
    decide

theorem splitWhitespace_opening (rest : String) :
    splitWhitespace (response.opening ++ rest) =
      "HTTP/1.1" :: toString response.status :: splitWhitespace rest := by
  have nonempty : toString response.status ≠ "" := by
    simp [Nat.toString_eq_repr, Nat.repr, ← String.toList_inj]
  have written : response.opening ++ rest =
      "HTTP/1.1" ++ String.ofList [' '] ++
        (toString response.status ++ String.ofList [' '] ++ rest) := by
    apply String.toList_inj.mp
    simp [opening]
  rw [written, splitWhitespace_word _ (by decide)
    (Json.Printer.of_all (by decide)) rfl,
    splitWhitespace_word _ nonempty
      (fun _ member => solid_of_digit (digit_of_mem_status member)) rfl]

/-- What was read before the end of the opening has at most two words. -/
theorem few_words {count : Nat}
    (short : count < (asBytes response.opening).length) :
    (splitWhitespace
      (fromUtf8Lossy ((asBytes response.opening).take count))).length ≤ 2 := by
  have single := asBytes_ascii response.opening_ascii
  have cut : (asBytes response.opening).take count =
      asBytes (String.ofList (response.opening.toList.take count)) := by
    rw [single, asBytes_ascii, String.toList_ofList, List.map_take]
    intro character member
    rw [String.toList_ofList] at member
    exact response.opening_ascii _ (List.mem_of_mem_take member)
  have sized : count ≤
      ("HTTP/1.1 ".toList ++ (toString response.status).toList).length := by
    rw [single, List.length_map, opening_toList, List.length_append] at short
    exact Nat.lt_succ_iff.mp short
  have noBlank : (toString response.status).toList.countP isWhitespace = 0 :=
    List.countP_eq_zero.mpr fun _ member =>
      Bool.eq_false_iff.mp (solid_of_digit (digit_of_mem_status member))
  have oneBlank : ("HTTP/1.1 ".toList ++
      (toString response.status).toList).countP isWhitespace = 1 := by
    rw [List.countP_append, noBlank]
    decide
  rw [cut, fromUtf8Lossy_asBytes]
  refine Nat.le_trans (length_splitWhitespace_le _) ?_
  rw [String.toList_ofList, opening_toList, List.take_append_of_le_length sized]
  refine Nat.succ_le_succ ?_
  rw [← oneBlank]
  exact (List.take_sublist _ _).countP_le

/-- The status that the console takes is the word behind the status code. -/
theorem codeOf_eq (count : Nat) :
    codeOf (fromUtf8Lossy (response.bytes.take count)) =
      (((splitWhitespace (fromUtf8Lossy (response.phrase.take
          (count - (asBytes response.opening).length)))).head?).bind
        fun word => (u16 word).toOption).getD 0 := by
  unfold bytes codeOf
  by_cases whole : (asBytes response.opening).length ≤ count
  · rw [List.take_append, List.take_of_length_le whole, fromUtf8Lossy_append,
      splitWhitespace_opening, List.getElem?_cons_succ,
      List.getElem?_cons_succ, List.head?_eq_getElem?]
  · have short : count < (asBytes response.opening).length := by omega
    have none : (splitWhitespace (fromUtf8Lossy
        ((asBytes response.opening).take count)))[2]? = none :=
      List.getElem?_eq_none (response.few_words short)
    rw [List.take_append, Nat.sub_eq_zero_of_le (Nat.le_of_lt short), List.take_zero,
      List.append_nil, none]
    rfl

end Response

/-- The console's result names the status of the answer exactly when the phrase,
as far as it was read, starts with the status once more. -/
theorem post_json_names_status_iff {net : Net} {url body : String}
    {door : Target} {sock : Sock} {response : Response} {count : Nat}
    (parsed : target url = .ok door)
    (connected : net door.host door.port = .ok sock)
    (serves : Serves sock (request door body) response count) :
    postJson net url body = resultOf response.status ↔
      response.Repeats count := by
  have positive : 0 < response.status := by
    have bound := response.threeDigits.1
    omega
  rw [postJson_eq parsed connected serves, resultOf_injective.eq_iff,
    response.codeOf_eq]
  unfold Response.Repeats
  constructor
  · intro same
    -- No status is zero, so the word was there and was a number.
    cases first : (splitWhitespace (fromUtf8Lossy (response.phrase.take
        (count - (asBytes response.opening).length)))).head? with
    | none =>
        rw [first] at same
        simp only [Option.bind_none, Option.getD_none] at same
        omega
    | some word =>
        refine ⟨word, rfl, ?_⟩
        cases reads : u16 word with
        | error _ =>
            simp only [first, reads, Except.toOption, Option.bind_some,
              Option.getD_none] at same
            omega
        | ok code =>
            simp only [first, reads, Except.toOption, Option.bind_some,
              Option.getD_some] at same
            rw [same]
  · rintro ⟨word, first, reads⟩
    simp [first, reads, Except.toOption]

def notFound : Response where
  status := 404
  threeDigits := by decide
  reason := asBytes "Not Found"
  behind := asBytes "Content-Type: application/json\r\n\r\n\x7b\x7d"

/-- A phrase that says the status once more. -/
def repeating : Response where
  status := 404
  threeDigits := by decide
  reason := asBytes "404"
  behind := asBytes "\r\n"

/-- A socket that takes everything and answers. -/
def serving (response : Response) : Sock where
  setWriteTimeout _ := .ok ()
  setReadTimeout _ := .ok ()
  write _ := .ok ()
  flush := .ok ()
  read count := .ok (response.bytes.take count)

theorem serves_serving (response : Response) (request : String) :
    Serves (serving response) request response 128 :=
  ⟨rfl, rfl, rfl, rfl, Nat.le_refl 128, rfl⟩

/-- The cortex's door on the same machine. -/
def localDoor : Target :=
  ⟨"127.0.0.1:8765", "127.0.0.1", 8765, "/api"⟩

theorem target_localDoor :
    target "http://127.0.0.1:8765/api" = .ok localDoor := by
  decide

/-- A refusal with the usual phrase comes back as a success. -/
theorem refusal_unheard :
    ¬ ∀ (net : Net) (url body : String) (door : Target) (sock : Sock)
        (response : Response) (count : Nat), target url = .ok door →
      net door.host door.port = .ok sock →
        Serves sock (request door body) response count →
          postJson net url body = resultOf response.status := by
  intro always
  have serves := serves_serving notFound (request localDoor "\x7b\x7d")
  have heard := always (fun _ _ => .ok (serving notFound)) _ _ _ _ notFound 128
    target_localDoor rfl serves
  have code : codeOf (fromUtf8Lossy (notFound.bytes.take 128)) = 0 := by
    decide +kernel
  rw [postJson_eq target_localDoor rfl serves, code] at heard
  exact absurd (resultOf_injective heard) (by decide)

theorem post_json_names_repeated_status :
    postJson (fun _ _ => .ok (serving repeating)) "http://127.0.0.1:8765/api"
        "\x7b\x7d" = resultOf repeating.status ↔ repeating.Repeats 128 :=
  post_json_names_status_iff target_localDoor rfl (serves_serving repeating _)

end Console
