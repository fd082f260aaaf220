import Loa.CortexDoor
import Loa.CortexVaultBoot

/-!
# The seal

A command that needs the token destroys the vault exactly when the token is not
the seal's, and no other command comes near the keys, the journal or the marker.
The statement is about whole runs: a vault that has been wiped has no token file
any more, so every token is foreign to it.
-/

namespace Vault

open FileDirectory RustText Program

variable {v : Vault}

/-- The word that opens the vault: the hex of the HMAC of the token file. -/
def sealWord (v : Vault) (host : Host) : Option String :=
  (host.file "token.bin").map fun bytes =>
    hexEncode (v.crypto.hmac bytes SEAL_DOMAIN).val

/-- The token is there and is the seal's word. -/
def Matches (v : Vault) (host : Host) (token : Option String) : Prop :=
  ∃ word, token = some word ∧ v.sealWord host = some word

/-- The token file, if there is one, has the size `ensure` gives it. -/
def TokenWhole (host : Host) : Prop :=
  ∀ bytes, host.file "token.bin" = some bytes → bytes.length = 32

theorem reads_presentedToken :
    Uses (Reads ["token.bin"]) v.presentedToken := by
  apply uses_bind (uses_perform (reads_read (List.mem_singleton_self _)))
  intro reply
  cases reply with
  | error error => exact uses_pure _
  | ok bytes =>
      dsimp only
      split <;> exact uses_pure _

theorem reads_checkToken (presented : String) :
    Uses (Reads ["token.bin"]) (v.checkToken presented) := by
  unfold checkToken
  split
  · exact uses_pure _
  · exact uses_bind reads_presentedToken fun _ => uses_pure _

theorem uses_checkToken (presented : String) :
    Uses Looking (v.checkToken presented) :=
  (reads_checkToken presented).mono fun _ reads => reads.looking

theorem run_presentedToken {host : Host} (whole : TokenWhole host) :
    run serve v.presentedToken host = ((v.sealWord host).getD "", host) := by
  unfold presentedToken sealWord
  rw [run_bind, run_perform]
  cases found : host.file "token.bin" with
  | none => simp [serve, found]
  | some bytes => simp [serve, found, whole bytes found]

theorem sealWord_ne_empty {host : Host} {word : String}
    (sealed : v.sealWord host = some word) : word ≠ "" := by
  unfold sealWord at sealed
  cases found : host.file "token.bin" with
  | none => simp [found] at sealed
  | some bytes =>
      simp only [found, Option.map_some, Option.some.injEq] at sealed
      rw [← sealed]
      apply hexEncode_ne_empty
      intro empty
      have sized := (v.crypto.hmac bytes SEAL_DOMAIN).property
      simp [empty] at sized

/-- The check compares the token with the seal's word and changes nothing. -/
theorem run_checkToken {host : Host} (whole : TokenWhole host)
    (token : Option String) :
    ((run serve (v.checkToken (token.getD "")) host).1 = true ↔
      Matches v host token) ∧
      (run serve (v.checkToken (token.getD "")) host).2 = host := by
  unfold checkToken
  by_cases empty : token.getD "" = ""
  · rw [if_pos empty]
    refine ⟨⟨fun impossible => absurd impossible Bool.false_ne_true, ?_⟩, rfl⟩
    rintro ⟨word, rfl, sealed⟩
    exact absurd empty (sealWord_ne_empty sealed)
  · rw [if_neg empty, run_bind, run_presentedToken whole]
    refine ⟨?_, rfl⟩
    obtain ⟨word, rfl⟩ : ∃ word, token = some word := by
      cases token with
      | none => exact absurd rfl empty
      | some word => exact ⟨word, rfl⟩
    have compared : constantTimeEq (asBytes word)
        (asBytes ((v.sealWord host).getD "")) = true ↔
        Matches v host (some word) := by
      rw [constantTimeEq_iff, asBytes_injective.eq_iff]
      constructor
      · intro same
        cases sealed : v.sealWord host with
        | none =>
            rw [sealed] at same
            exact absurd same empty
        | some right =>
            rw [sealed] at same
            exact ⟨word, rfl, sealed.trans (congrArg some same.symm)⟩
      · rintro ⟨right, given, sealed⟩
        cases given
        rw [sealed]
        rfl
    exact compared

theorem calls_unlink (name : String) (host : Host) :
    .remove name ∈ calls serve (unlink name).run host := by
  unfold unlink
  rw [ExceptT.run_mk, calls_bind, calls_perform]
  exact List.mem_append_left _ (List.mem_singleton.mpr rfl)

/-- A wipe unlinks both keys. -/
theorem removes_wipe (reason : String) (host : Host) :
    .remove "key.bin" ∈ calls serve (v.wipe reason).run host ∧
      .remove "token.bin" ∈ calls serve (v.wipe reason).run host := by
  have size : Guarded serve (fun _ => True) (fun _ after => after = host)
      (sizeOrOne "vault.enc") host :=
    guarded_sizeOrOne trivial rfl
  have unlinked := (guarded_unlink "key.bin" host).run_post.2.1
  have keyless : run serve (unlink "key.bin").run host =
      (.ok (), (run serve (unlink "key.bin").run host).2) :=
    Prod.ext unlinked rfl
  unfold wipe
  rw [calls_exceptBind, run_exceptLift, size.run_post.2]
  dsimp only
  rw [calls_exceptBind, keyless]
  dsimp only
  rw [calls_exceptBind]
  constructor
  · exact List.mem_append_right _
      (List.mem_append_left _ (calls_unlink "key.bin" host))
  · exact List.mem_append_right _ (List.mem_append_right _
      (List.mem_append_left _ (calls_unlink "token.bin" _)))

/-- A command as it comes through the door. -/
structure Command where
  cmd : String
  args : Json.Value
  token : Option String

/-- The commands that have to show the token. -/
def Command.Asks (command : Command) : Prop :=
  command.cmd = "vault.read" ∨
    (command.cmd = "vault.append" ∧
      ∃ entry, (command.args.get "entry").bind Json.Value.asStr = some entry)

/-- The program of a command. -/
def Command.program (v : Vault) (cx : Cortex) (command : Command) :
    FileProgram Cortex.Dispatched :=
  Cortex.dispatch v cx command.cmd command.args command.token

/-- The cortex and the vault's host after a command. -/
def obey (v : Vault) (now : Cortex × Host) (command : Command) :
    Cortex × Host :=
  let (dispatched, host) := run serve (command.program v now.1) now.2
  (dispatched.cx, host)

/-- The cortex and the vault's host after a run of commands. -/
def obeyAll (v : Vault) (now : Cortex × Host) (commands : List Command) :
    Cortex × Host :=
  commands.foldl (obey v) now

/-- The files an opened vault may change. -/
def journalFiles : List String :=
  ["vault.tmp", "vault.enc", "access.log", "status.tmp", "status.json"]

/-- A command that does not ask for the token only writes the status. -/
theorem confined_of_not_asks {cx : Cortex} {command : Command}
    (quiet : ¬ command.Asks) :
    Confined ["status.tmp", "status.json"] (command.program v cx) := by
  unfold Command.program Cortex.dispatch
  split
  · exact confined_pure _
  split
  · exact confined_pure _
  split
  · exact confined_pure _
  split
  · exact confined_bind confined_health fun _ => confined_pure _
  split
  · rename_i appending
    split
    · exact confined_pure _
    · rename_i entry found
      exact absurd (Or.inr ⟨appending, entry, found⟩) quiet
  split
  · rename_i reading
    exact absurd (Or.inl reading) quiet
  · exact confined_pure _

/-- The answers behind the seal. -/
inductive Behind (v : Vault) : FileProgram Json.Value → Prop
  | read : Behind v v.readResponse
  | append (entry : String) : Behind v (v.appendResponse entry)

theorem Behind.confined {answer : FileProgram Json.Value}
    (behind : Behind v answer) : Confined journalFiles answer := by
  cases behind with
  | read =>
      apply confined_bind (confined_read.mono (by decide))
      intro result
      cases result with
      | ok found => exact confined_pure _
      | error error => exact confined_pure _
  | append entry =>
      apply confined_bind (confined_append entry)
      intro result
      cases result with
      | ok count => exact confined_pure _
      | error error => exact confined_pure _

/-- A command that asks for the token is its answer behind the seal. -/
theorem program_of_asks {command : Command} (asks : command.Asks) :
    ∃ reason answer, Behind v answer ∧
      ∀ cx, command.program v cx =
        Cortex.sealedCommand v command.token reason answer >>=
          fun out => pure ⟨out, none, cx⟩ := by
  obtain ⟨cmd, args, token⟩ := command
  rcases asks with reading | ⟨appending, entry, found⟩
  · dsimp only at reading
    subst cmd
    exact ⟨"read without token", v.readResponse, .read, fun cx => rfl⟩
  · dsimp only at appending found
    subst cmd
    refine ⟨"append without token", v.appendResponse entry, .append entry,
      fun cx => ?_⟩
    simp only [Command.program, Cortex.dispatch, found]
    rfl

/-- The command goes through a wipe: it unlinks both keys and leaves the journal
as NULs. -/
structure Destroys (v : Vault) (before : Cortex × Host) (command : Command) :
    Prop where
  key : .remove "key.bin" ∈ calls serve (command.program v before.1) before.2
  token :
    .remove "token.bin" ∈ calls serve (command.program v before.1) before.2
  left : Wiped before.2 (obey v before command).2

/-- The command removes nothing and leaves the named files as they are. -/
structure Spares (v : Vault) (names : List String) (before : Cortex × Host)
    (command : Command) : Prop where
  calls : ∀ name,
    .remove name ∉ calls serve (command.program v before.1) before.2
  files : ∀ name ∈ names,
    (obey v before command).2.file name = before.2.file name

theorem Spares.not_destroys {names : List String} {before : Cortex × Host}
    {command : Command} (spares : Spares v names before command) :
    ¬ Destroys v before command :=
  fun destroys => spares.calls "key.bin" destroys.key

theorem Spares.mono {names fewer : List String} {before : Cortex × Host}
    {command : Command} (spares : Spares v names before command)
    (included : fewer ⊆ names) : Spares v fewer before command :=
  ⟨spares.calls, fun name member => spares.files name (included member)⟩

theorem spares_of_confined {names kept : List String}
    {before : Cortex × Host} {command : Command}
    (confined : Confined names (command.program v before.1))
    (off : ∀ name ∈ kept, name ∉ names) : Spares v kept before command := by
  refine ⟨fun name member => ?_, fun name member => ?_⟩
  · exact confined.gentle.calls before.2 _ member
  · exact (confined.files before.2).run_post.1.files name (off name member)

theorem spares_of_not_asks {before : Cortex × Host} {command : Command}
    (quiet : ¬ command.Asks) :
    Spares v ["key.bin", "token.bin", "vault.enc", "marker.txt"] before
      command :=
  spares_of_confined (confined_of_not_asks quiet) (by decide)

/-- Behind the right token, the answer is all there is. -/
theorem sealedCommand_of_matches {host : Host} {token : Option String}
    (whole : TokenWhole host) (right : Matches v host token) (reason : String)
    (answer : FileProgram Json.Value) :
    (run serve (Cortex.sealedCommand v token reason answer) host).2 =
        (run serve answer host).2 ∧
      ∀ op ∈ calls serve (Cortex.sealedCommand v token reason answer) host,
        op ∈ calls serve answer host ∨ Looking op := by
  have checked := run_checkToken (v := v) whole token
  have opens := checked.1.mpr right
  unfold Cortex.sealedCommand
  rw [run_bind, calls_bind, checked.2, opens, if_pos rfl]
  refine ⟨congrArg Prod.snd (run_bind serve answer _ host), ?_⟩
  intro op member
  rcases List.mem_append.mp member with looked | answered
  · exact Or.inr ((uses_checkToken _).calls host op looked)
  · left
    rw [calls_bind, calls_pure, List.append_nil] at answered
    exact answered

/-- Before a foreign token, the wipe is all there is. -/
theorem sealedCommand_of_foreign {host : Host} {token : Option String}
    (whole : TokenWhole host) (foreign : ¬ Matches v host token)
    (reason : String) (answer : FileProgram Json.Value) :
    (run serve (Cortex.sealedCommand v token reason answer) host).2 =
        (run serve (v.wipe reason).run host).2 ∧
      ∀ op ∈ calls serve (v.wipe reason).run host,
        op ∈ calls serve (Cortex.sealedCommand v token reason answer) host := by
  have checked := run_checkToken (v := v) whole token
  have refused := Bool.eq_false_iff.mpr (mt checked.1.mp foreign)
  unfold Cortex.sealedCommand
  rw [run_bind, calls_bind, checked.2, refused, if_neg Bool.false_ne_true]
  refine ⟨congrArg Prod.snd (run_bind serve (v.wipe reason).run _ host), ?_⟩
  intro op member
  apply List.mem_append_right
  rw [calls_bind]
  exact List.mem_append_left _ member

theorem spares_of_matches {before : Cortex × Host} {command : Command}
    (whole : TokenWhole before.2) (asks : command.Asks)
    (right : Matches v before.2 command.token) :
    Spares v ["key.bin", "token.bin", "marker.txt"] before command := by
  obtain ⟨reason, answer, behind, isProgram⟩ := program_of_asks (v := v) asks
  have opened := sealedCommand_of_matches whole right reason answer
  refine ⟨fun name member => ?_, fun name member => ?_⟩
  · rw [isProgram, calls_bind, calls_pure, List.append_nil] at member
    rcases opened.2 _ member with answered | looking
    · exact behind.confined.gentle.calls before.2 _ answered
    · exact gentle_of_reading looking.reading
  · have off : ∀ name ∈ ["key.bin", "token.bin", "marker.txt"],
        name ∉ journalFiles := by decide
    unfold obey
    rw [isProgram, run_bind]
    change (run serve (Cortex.sealedCommand v command.token reason answer)
      before.2).2.file name = before.2.file name
    rw [opened.1]
    exact (behind.confined.files before.2).run_post.1.files name
      (off name member)

theorem destroys_of_foreign {before : Cortex × Host} {command : Command}
    (whole : TokenWhole before.2) (asks : command.Asks)
    (foreign : ¬ Matches v before.2 command.token) :
    Destroys v before command := by
  obtain ⟨reason, answer, -, isProgram⟩ := program_of_asks (v := v) asks
  have wiping := sealedCommand_of_foreign whole foreign reason answer
  have removes := removes_wipe (v := v) reason before.2
  refine ⟨?_, ?_, ?_⟩
  · rw [isProgram, calls_bind]
    exact List.mem_append_left _ (wiping.2 _ removes.1)
  · rw [isProgram, calls_bind]
    exact List.mem_append_left _ (wiping.2 _ removes.2)
  · unfold obey
    rw [isProgram, run_bind]
    change Wiped before.2 (run serve (Cortex.sealedCommand v command.token
      reason answer) before.2).2
    rw [wiping.1]
    exact (guarded_wipe reason before.2).run_post.2

/-- Every command leaves the token file whole or leaves none. -/
theorem tokenWhole_obey {before : Cortex × Host} (command : Command)
    (whole : TokenWhole before.2) : TokenWhole (obey v before command).2 := by
  have kept {names : List String} (member : "token.bin" ∈ names)
      (spares : Spares v names before command) :
      TokenWhole (obey v before command).2 := by
    intro bytes found
    rw [spares.files "token.bin" member] at found
    exact whole bytes found
  by_cases asks : command.Asks
  · by_cases right : Matches v before.2 command.token
    · exact kept (by decide) (spares_of_matches whole asks right)
    · intro bytes found
      rw [(destroys_of_foreign whole asks right).left.token] at found
      cases found
  · exact kept (by decide) (spares_of_not_asks asks)

theorem tokenWhole_obeyAll {start : Cortex × Host} (commands : List Command)
    (whole : TokenWhole start.2) :
    TokenWhole (obeyAll v start commands).2 := by
  induction commands generalizing start with
  | nil => exact whole
  | cons command rest induction =>
      exact induction (tokenWhole_obey command whole)

/-- A boot, wherever it is cut off, leaves the token file whole. -/
theorem tokenWhole_ensure {host : Host} (whole : TokenWhole host)
    (count : Nat) :
    TokenWhole (v.ensure.run.cut serve count host) := by
  have booting := (guarded_ensure (v := v) host).cut count
  intro bytes found
  rcases booting.token with same | ⟨_, index, _, made⟩
  · rw [same] at found
    exact whole bytes found
  · rw [made, Option.some.injEq] at found
    rw [← found]
    exact (host.draws index).property

/-- After any run of commands, the next one destroys the vault exactly when it
asks for the token and shows a foreign one; the right token destroys nothing,
and a command that does not ask leaves the vault as it is. -/
theorem destroys_iff_foreign (v : Vault) (start : Cortex × Host)
    (ensured : TokenWhole start.2) (past : List Command) (command : Command) :
    let before := obeyAll v start past
    (Destroys v before command ↔
      command.Asks ∧ ¬ Matches v before.2 command.token) ∧
    (Matches v before.2 command.token →
      Spares v ["key.bin", "token.bin", "marker.txt"] before command) ∧
    (¬ command.Asks →
      Spares v ["key.bin", "token.bin", "vault.enc", "marker.txt"] before
        command) := by
  intro before
  have whole : TokenWhole before.2 := tokenWhole_obeyAll past ensured
  refine ⟨⟨fun destroys => ?_, fun ⟨asks, foreign⟩ =>
    destroys_of_foreign whole asks foreign⟩, fun right => ?_,
    spares_of_not_asks⟩
  · by_contra spared
    rw [not_and_not_right] at spared
    by_cases asks : command.Asks
    · exact (spares_of_matches whole asks (spared asks)).not_destroys destroys
    · exact (spares_of_not_asks asks).not_destroys destroys
  · by_cases asks : command.Asks
    · exact spares_of_matches whole asks right
    · exact (spares_of_not_asks asks).mono (by decide)

namespace Vectors

def tokenRaw : Bytes :=
  (List.range 32).map UInt8.ofNat

def presented : Block :=
  ⟨
    [7, 44, 147, 183, 3, 76, 215, 144, 92, 236, 130, 3, 61, 197, 242, 172, 11,
     64, 197, 26, 86, 39, 251, 23, 141, 245, 58, 63, 239, 162, 210, 204],
    by decide⟩

def keyRaw : Bytes :=
  [161, 50, 172, 160, 66, 49, 187, 53, 62, 199, 186, 76, 38, 251, 227, 59, 45,
   137, 185, 45, 42, 218, 231, 96, 94, 134, 183, 191, 125, 247, 45, 254]

def journalBody : Bytes :=
  [128, 0, 0, 0, 0, 106, 173, 8, 204, 162, 26, 192, 230, 128, 222, 254, 152,
   247, 146, 153, 194, 112, 111, 28, 26, 157, 232, 202, 88, 255, 152, 169,
   177, 183, 196, 159, 64, 19, 69, 202, 155, 13, 246, 176, 20, 58, 252, 12,
   144, 153, 230, 149, 229, 85, 79, 211, 165, 75, 169, 141, 224, 23, 59, 55,
   3, 95, 100, 124, 48, 76, 100, 14, 237, 247, 169, 24, 67, 149, 174, 170, 62,
   208, 198, 171, 212, 195, 8, 3, 73, 134, 1, 190, 192, 69, 63, 230, 143, 195,
   68, 126, 170, 154, 216, 95, 199, 89, 9, 73, 89, 254, 163, 118, 172, 174,
   195, 237, 41, 214, 233, 113, 123]

def journalTag : Block :=
  ⟨
    [18, 233, 141, 185, 84, 248, 155, 217, 55, 62, 121, 156, 165, 20, 58, 207,
     235, 193, 78, 198, 145, 36, 55, 184, 192, 153, 74, 181, 231, 240, 219,
     220],
    by decide⟩

/-- The digests that the vectors fix; elsewhere the key itself, so that no two
keys sign alike. -/
def hmac (key message : Bytes) : Block :=
  if key = tokenRaw ∧ message = SEAL_DOMAIN then presented
  else if key = keyRaw.take 16 ∧ message = journalBody then journalTag
  else ⟨(key ++ List.replicate 32 0).take 32, by simp⟩

/-- A vault over these digests.  The ciphers and texts are the plain ones. -/
def vault : Vault where
  dir := "/var/lib/vault"
  crypto :=
    { hmac := hmac
      sha256 := fun bytes => ⟨(bytes ++ List.replicate 32 0).take 32, by simp⟩
      base64Refusal := fun _ => "Invalid symbol"
      encryptPadded := fun _ _ plain => .ok plain
      decryptPadded := fun _ _ cipher => .ok cipher }
  text :=
    { display := fun _ => "null"
      displayPretty := fun _ => "null"
      parse := fun _ => .ok .null
      quote := fun text => text }

/-- A host with the files of the vectors, and one later draw over and over. -/
def machine : Host where
  directory := ((Directory.empty.put "key.bin"
    (asBytes (Base64Url.encode keyRaw))).put "token.bin" tokenRaw).put
      "vault.enc" (asBytes (Base64Url.encode (journalBody ++ journalTag.val)))
  draws := fun _ => ⟨List.replicate 32 7, rfl⟩
  readings := fun _ => 0
  ages := fun _ => 0
  stamps := fun _ => "1970-01-01T00:00:00Z"
  used := 0

theorem tokenWhole_machine : TokenWhole machine := by
  intro bytes found
  have token : machine.file "token.bin" = some tokenRaw := by
    simp [Host.file, machine, Directory.file_put]
  cases found.symm.trans token
  decide

/-- The vectors' token reads, and after a read without it, it wipes. -/
theorem destroys_iff_foreign_vectors :
    let start : Cortex × Host := ({}, machine)
    let past : List Command := [⟨"vault.read", .null, none⟩]
    let command : Command :=
      ⟨"vault.read", .null, some (hexEncode presented.val)⟩
    let before := obeyAll vault start past
    (Destroys vault before command ↔
      command.Asks ∧ ¬ Matches vault before.2 command.token) ∧
    (Matches vault before.2 command.token →
      Spares vault ["key.bin", "token.bin", "marker.txt"] before command) ∧
    (¬ command.Asks →
      Spares vault ["key.bin", "token.bin", "vault.enc", "marker.txt"] before
        command) :=
  destroys_iff_foreign vault _ tokenWhole_machine _ _

end Vectors

end Vault
