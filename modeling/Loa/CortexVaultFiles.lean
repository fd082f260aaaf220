import Loa.CortexVault

/-!
# What the vault's functions do to its files

Each function is described by the files it may change at any moment, so also
when it is cut off, and by the files it leaves behind when it ends.  Reading the
journal is a function of two files, the key and the journal.
-/

namespace Vault

open FileDirectory RustText Program

/-- The calls that take no name away. -/
def Gentle : Op → Prop
  | .remove _ => False
  | _ => True

theorem gentle_of_reading {op : Op} (reading : op.Reading) : Gentle op := by
  cases op <;> first
    | exact reading.elim
    | trivial

/-- At every moment only the named files differ from the start, and nothing is
removed on the way. -/
structure Confined {α : Type} (names : List String)
    (program : FileProgram α) : Prop where
  files : ∀ host,
    Guarded serve (AgreeOff names host) (fun _ _ => True) program host
  gentle : Uses Gentle program

section Confined

variable {α β : Type} {names : List String}

theorem confined_pure (value : α) :
    Confined names (pure value : FileProgram α) :=
  ⟨fun host => guarded_pure (AgreeOff.refl names host) trivial, uses_pure _⟩

theorem Confined.then {first : FileProgram α}
    (confined : Confined names first) {host start : Host}
    (reached : AgreeOff names start host) {post : α → Host → Prop}
    (next : ∀ value after, AgreeOff names start after → post value after) :
    Guarded serve (AgreeOff names start) post first host :=
  (confined.files host).mono (fun _ agree => reached.trans agree)
    fun value after agree _ => next value after (reached.trans agree)

theorem confined_bind {first : FileProgram α} {next : α → FileProgram β}
    (early : Confined names first) (late : ∀ value, Confined names (next value)) :
    Confined names (first >>= next) := by
  refine ⟨fun host => ?_,
    uses_bind early.gentle fun value => (late value).gentle⟩
  apply guarded_bind
  apply early.then (AgreeOff.refl names host)
  intro value after agree
  exact (late value).then agree fun _ _ _ => trivial

theorem confined_exceptBind {first : Fallible α} {next : α → Fallible β}
    (early : Confined names first.run)
    (late : ∀ value, Confined names (next value).run) :
    Confined names (first >>= next).run := by
  rw [ExceptT.run_bind]
  apply confined_bind early
  intro result
  cases result with
  | ok value => exact late value
  | error error => exact confined_pure _

theorem Confined.mono {program : FileProgram α} {wider : List String}
    (confined : Confined names program) (included : names ⊆ wider) :
    Confined wider program := by
  refine ⟨fun host => ?_, confined.gentle⟩
  exact (confined.files host).mono (fun _ agree => agree.mono included)
    fun _ _ _ _ => trivial

theorem confined_reading {program : FileProgram α}
    (reading : Uses Op.Reading program) : Confined names program := by
  refine ⟨fun host => ?_, reading.mono fun _ => gentle_of_reading⟩
  apply reading.guarded _ (AgreeOff.refl names host)
  intro op world permitted agree
  exact agree.trans
    ((agreeOff_serve_reading permitted world).mono (List.nil_subset names))

theorem confined_lift {program : FileProgram α}
    (confined : Confined names program) :
    Confined names (ExceptT.lift program : Fallible α).run :=
  confined_bind confined fun _ => confined_pure _

end Confined

theorem guarded_orFail {α : Type} {always : Host → Prop}
    {post : Except String α → Host → Prop} {context : String}
    {call : FileProgram (Except OsError α)} {host : Host}
    (guarded : Guarded serve always
      (fun reply after =>
        match reply with
        | .ok value => post (.ok value) after
        | .error error => post (.error (context ++ error.text)) after)
      call host) :
    Guarded serve always post (orFail context call).run host := by
  apply guarded_bind
  apply guarded.mono (fun _ held => held)
  intro reply after held met
  cases reply with
  | ok value => exact guarded_pure held met
  | error error => exact guarded_pure held met

theorem uses_orFail {α : Type} {allowed : Op → Prop} {context : String}
    {call : FileProgram (Except OsError α)} (uses : Uses allowed call) :
    Uses allowed (orFail context call).run := by
  apply uses_bind uses
  intro reply
  cases reply with
  | ok value => exact uses_pure _
  | error error => exact uses_pure _

variable {v : Vault}

/-- A file is being written beside and renamed over: it has its old bytes or the
new ones, and every other file but the temporary one is as before. -/
structure Rewriting (host : Host) (name temporary : String) (bytes : Bytes)
    (now : Host) : Prop where
  others : ∀ other, other ≠ temporary → other ≠ name →
    now.file other = host.file other
  target : now.file name = host.file name ∨ now.file name = some bytes
  draws : now.draws = host.draws
  used : host.used ≤ now.used

theorem Rewriting.refl (host : Host) (name temporary : String)
    (bytes : Bytes) : Rewriting host name temporary bytes host :=
  ⟨fun _ _ _ => rfl, Or.inl rfl, rfl, le_rfl⟩

/-- Values handed out before the writing do not matter to it. -/
theorem Rewriting.of_agreeOff {start host now : Host} {name temporary : String}
    {bytes : Bytes} (agree : AgreeOff [] start host)
    (rewriting : Rewriting host name temporary bytes now) :
    Rewriting start name temporary bytes now := by
  have same (other : String) : host.file other = start.file other :=
    agree.files other (List.not_mem_nil)
  refine ⟨fun other notTemporary notName => ?_, ?_,
    rewriting.draws.trans agree.draws, agree.used.trans rewriting.used⟩
  · rw [rewriting.others other notTemporary notName, same]
  · rw [← same name]
    exact rewriting.target

/-- Writing a file whole never shows a half-written file under its name, and
always ends well. -/
theorem guarded_writeMode (name : String) (bytes : Bytes) (mode : Nat)
    (host : Host) (apart : name ≠ withExtension name "tmp") :
    Guarded serve
      (Rewriting host name (withExtension name "tmp") bytes)
      (fun result after => result = .ok () ∧ after.file name = some bytes)
      (v.writeMode name bytes mode).run host := by
  unfold writeMode
  generalize withExtension name "tmp" = temporary at apart
  apply guarded_exceptBind
  apply guarded_orFail
  apply guarded_openTruncated (Rewriting.refl host name temporary bytes)
  intro inode opened pointed emptied openedStreams
  have whileOpen : Rewriting host name temporary bytes opened :=
    ⟨fun other notTemporary _ => by rw [emptied, if_neg notTemporary],
      Or.inl (by rw [emptied, if_neg apart]), openedStreams.draws,
      openedStreams.used.ge⟩
  refine ⟨whileOpen, ?_⟩
  apply guarded_exceptBind
  apply guarded_orFail
  apply guarded_write pointed whileOpen
  intro written _ holds writtenStreams
  have filled : written.file temporary = some bytes := by
    rw [holds, if_pos rfl, emptied, if_pos rfl]
    simp
  have whileWritten : Rewriting host name temporary bytes written := by
    refine ⟨fun other notTemporary notName => ?_, Or.inl ?_, ?_, ?_⟩
    · rw [holds, if_neg notTemporary]
      exact whileOpen.others other notTemporary notName
    · rw [holds, if_neg apart, emptied, if_neg apart]
    · exact writtenStreams.draws.trans whileOpen.draws
    · exact whileOpen.used.trans writtenStreams.used.ge
  refine ⟨whileWritten, ?_⟩
  apply guarded_exceptBind
  apply guarded_orFail
  apply guarded_sync whileWritten
  apply guarded_orFail
  have present : (written.file temporary).isSome := by simp [filled]
  apply guarded_rename present whileWritten
  intro renamed moved renamedStreams
  have replaced : renamed.file name = some bytes := by
    rw [moved, if_pos rfl, filled]
  refine ⟨⟨fun other notTemporary notName => ?_, Or.inr replaced, ?_, ?_⟩,
    rfl, replaced⟩
  · rw [moved, if_neg notName, if_neg notTemporary]
    exact whileWritten.others other notTemporary notName
  · exact renamedStreams.draws.trans whileWritten.draws
  · exact whileWritten.used.trans renamedStreams.used.ge

/-- The journal is written by way of `vault.tmp`. -/
theorem guarded_writeJournal (bytes : Bytes) (host : Host) :
    Guarded serve (Rewriting host "vault.enc" "vault.tmp" bytes)
      (fun result after =>
        result = .ok () ∧ after.file "vault.enc" = some bytes)
      (v.writeMode "vault.enc" bytes 0o600).run host := by
  have temporary : withExtension "vault.enc" "tmp" = "vault.tmp" := by decide
  rw [← temporary]
  exact guarded_writeMode "vault.enc" bytes 0o600 host (by decide)

theorem Rewriting.agreeOff {host now : Host} {name temporary : String}
    {bytes : Bytes} (rewriting : Rewriting host name temporary bytes now) :
    AgreeOff [temporary, name] host now := by
  refine ⟨fun other off => ?_, rewriting.draws, rewriting.used⟩
  simp only [List.mem_cons, List.not_mem_nil, or_false, not_or] at off
  exact rewriting.others other off.1 off.2

theorem gentle_writeMode (name : String) (bytes : Bytes) (mode : Nat) :
    Uses Gentle (v.writeMode name bytes mode).run := by
  have opens (temporary : String) : Gentle (.openTruncated temporary mode) :=
    trivial
  have writes (file : Nat) : Gentle (.write file bytes) := trivial
  have syncs (file : Nat) : Gentle (.sync file) := trivial
  have renames (temporary : String) : Gentle (.rename temporary name) :=
    trivial
  apply uses_exceptBind (uses_orFail (uses_perform (opens _)))
  intro file
  apply uses_exceptBind (uses_orFail (uses_perform (writes file)))
  intro _
  apply uses_exceptBind (uses_orFail (uses_perform (syncs file)))
  intro _
  exact uses_orFail (uses_perform (renames _))

theorem confined_writeMode (name : String) (bytes : Bytes) (mode : Nat)
    (apart : name ≠ withExtension name "tmp") :
    Confined [withExtension name "tmp", name]
      (v.writeMode name bytes mode).run := by
  refine ⟨fun host => ?_, gentle_writeMode name bytes mode⟩
  exact (guarded_writeMode name bytes mode host apart).mono
    (fun _ rewriting => rewriting.agreeOff) fun _ _ _ _ => trivial

/-- Logging an access adds a line to the log, changes nothing else and always
ends well. -/
theorem guarded_logging (event detail : String) (host : Host) :
    Guarded serve (AgreeOff ["access.log"] host)
      (fun result after => result = .ok () ∧
        after.file "access.log" = some ((host.file "access.log").getD [] ++
          asBytes (v.text.display (.object
            [("detail", .string detail), ("event", .string event),
              ("ts", .number (.double (host.readings host.used)))])) ++
          asBytes "\n"))
      (v.logAccess event detail).run host := by
  unfold logAccess
  apply guarded_exceptBind
  apply guarded_bind
  have ticking : Op.Reading .clock := trivial
  apply guarded_reading ticking (AgreeOff.refl _ host)
  intro ticked agreeTicked
  have whileTicked := agreeTicked.mono (List.nil_subset ["access.log"])
  refine ⟨whileTicked, guarded_pure whileTicked ?_⟩
  dsimp only [serve]
  apply guarded_exceptBind
  apply guarded_orFail
  apply guarded_openAppend whileTicked
  intro inode opened pointed files streams
  have afterOpen := whileTicked.trans
    (⟨fun other off => by rw [files, if_neg (by simpa using off)],
      streams.draws, streams.used.ge⟩ : AgreeOff ["access.log"] ticked opened)
  refine ⟨afterOpen, ?_⟩
  apply guarded_exceptBind
  apply guarded_orFail
  apply guarded_append pointed afterOpen
  intro line sameNames lineFiles lineStreams
  have afterLine := afterOpen.trans
    (⟨fun other off => by rw [lineFiles, if_neg (by simpa using off)],
      lineStreams.draws, lineStreams.used.ge⟩ :
      AgreeOff ["access.log"] opened line)
  refine ⟨afterLine, ?_⟩
  apply guarded_orFail
  apply guarded_append (by rw [sameNames, pointed]) afterLine
  intro ended _ endFiles endStreams
  refine ⟨afterLine.trans
    ⟨fun other off => by rw [endFiles, if_neg (by simpa using off)],
      endStreams.draws, endStreams.used.ge⟩, rfl, ?_⟩
  rw [endFiles, if_pos rfl, lineFiles, if_pos rfl, files, if_pos rfl,
    agreeTicked.files "access.log" List.not_mem_nil]
  rfl

theorem gentle_logAccess (event detail : String) :
    Uses Gentle (v.logAccess event detail).run := by
  have ticks : Gentle .clock := trivial
  have opens : Gentle (.openAppend "access.log" 0o600) := trivial
  have writes (file : Nat) (bytes : Bytes) : Gentle (.append file bytes) :=
    trivial
  unfold logAccess
  apply uses_exceptBind (uses_bind (uses_perform ticks) fun _ => uses_pure _)
  intro now
  apply uses_exceptBind (uses_orFail (uses_perform opens))
  intro file
  apply uses_exceptBind (uses_orFail (uses_perform (writes file _)))
  intro _
  exact uses_orFail (uses_perform (writes file _))

theorem confined_logAccess (event detail : String) :
    Confined ["access.log"] (v.logAccess event detail).run := by
  refine ⟨fun host => ?_, gentle_logAccess event detail⟩
  exact (guarded_logging event detail host).mono (fun _ agree => agree)
    fun _ _ _ _ => trivial

/-- A file is being removed: it is as before or gone, and every other file is
as before. -/
structure Removing (host : Host) (name : String) (now : Host) : Prop where
  others : ∀ other, other ≠ name → now.file other = host.file other
  target : now.file name = host.file name ∨ now.file name = none
  streams : SameStreams host now

/-- Removing a file always ends well, also when the file is absent. -/
theorem guarded_unlink (name : String) (host : Host) :
    Guarded serve (Removing host name)
      (fun result after => result = .ok () ∧ after.file name = none)
      (unlink name).run host := by
  apply guarded_bind
  apply guarded_remove ⟨fun _ _ => rfl, Or.inl rfl, rfl, rfl⟩
  intro result after answer files streams
  have absent : after.file name = none := by rw [files, if_pos rfl]
  have removing : Removing host name after :=
    ⟨fun other differ => by rw [files, if_neg differ], Or.inr absent, streams⟩
  refine ⟨removing, ?_⟩
  rcases answer with rfl | rfl
  · exact guarded_pure removing ⟨rfl, absent⟩
  · exact guarded_pure removing ⟨rfl, absent⟩

/-- The entries that a journal holds under a key file. -/
def opened (v : Vault) (key journal : Option Bytes) :
    Option (List Json.Value) :=
  match (journal.bind fromUtf8).map fun token => v.tokenBlob (trim token) with
  | some (.ok blob) =>
      match key.map v.keyHalves with
      | some (.ok (sign, enc)) =>
          match v.openToken sign enc blob with
          | .ok plain => v.entriesOf plain
          | .error _ => none
      | _ => none
  | _ => none

theorem run_readToString (name : String) (host : Host) :
    run serve (readToString name) host =
      ((host.file name).bind fromUtf8, host) := by
  unfold readToString
  rw [run_bind, run_perform]
  cases found : host.file name with
  | some bytes => simp [serve, found]
  | none => simp [serve, found]

theorem run_orFail {α : Type} (context : String)
    (call : FileProgram (Except OsError α)) (host : Host) :
    run serve (orFail context call).run host =
      match run serve call host with
      | (.ok value, after) => (.ok value, after)
      | (.error error, after) => (.error (context ++ error.text), after) := by
  unfold orFail
  rw [ExceptT.run_mk, run_bind]
  rcases run serve call host with ⟨_ | _, after⟩ <;> rfl

theorem run_readKey (host : Host) :
    run serve v.readKey.run host =
      (match host.file "key.bin" with
        | some stored => v.keyHalves stored
        | none => .error ("" ++ OsError.notFound.text), host) := by
  unfold readKey
  rw [run_exceptBind, run_orFail, run_perform]
  cases found : host.file "key.bin" with
  | some stored =>
      simp only [serve, found]
      rfl
  | none => simp only [serve, found]

theorem run_fernetDecrypt (token : String) (host : Host) :
    run serve (v.fernetDecrypt token).run host =
      (match v.tokenBlob token with
        | .ok blob =>
            match host.file "key.bin" with
            | some stored =>
                match v.keyHalves stored with
                | .ok (sign, enc) => v.openToken sign enc blob
                | .error error => .error error
            | none => .error ("" ++ OsError.notFound.text)
        | .error error => .error error, host) := by
  unfold fernetDecrypt
  rw [run_exceptBind]
  cases v.tokenBlob token with
  | error error => rfl
  | ok blob =>
      change run serve (v.readKey >>= _).run host = _
      rw [run_exceptBind, run_readKey]
      cases host.file "key.bin" with
      | none => rfl
      | some stored =>
          dsimp only
          rcases v.keyHalves stored with error | ⟨sign, enc⟩ <;> rfl

/-- Loading changes nothing and finds what the key opens. -/
theorem run_load (host : Host) :
    run serve v.load host =
      (v.opened (host.file "key.bin") (host.file "vault.enc"), host) := by
  unfold load opened
  rw [run_bind, run_readToString]
  cases (host.file "vault.enc").bind fromUtf8 with
  | none => rfl
  | some token =>
      dsimp only [Option.map_some]
      rw [run_bind, run_fernetDecrypt]
      cases v.tokenBlob (trim token) with
      | error error => rfl
      | ok blob =>
          cases host.file "key.bin" with
          | none => rfl
          | some stored =>
              dsimp only [Option.map_some]
              rcases v.keyHalves stored with error | ⟨sign, enc⟩
              · rfl
              · dsimp only
                cases v.openToken sign enc blob <;> rfl

/-- The calls that only look at a file. -/
def Looking (op : Op) : Prop :=
  ∃ name, op = .read name

theorem Looking.reading {op : Op} (looking : Looking op) : op.Reading := by
  obtain ⟨name, rfl⟩ := looking
  trivial

theorem uses_reading {α : Type} {program : FileProgram α}
    (uses : Uses Looking program) : Uses Op.Reading program :=
  uses.mono fun _ looking => looking.reading

theorem serve_looking {op : Op} (looking : Looking op) (host : Host) :
    (serve op host).2 = host := by
  obtain ⟨name, rfl⟩ := looking
  rfl

/-- The calls that only look at one of these files. -/
def Reads (names : List String) (op : Op) : Prop :=
  ∃ name ∈ names, op = .read name

theorem reads_read {names : List String} {name : String}
    (member : name ∈ names) : Reads names (.read name) :=
  ⟨name, member, rfl⟩

theorem Reads.looking {names : List String} {op : Op}
    (reads : Reads names op) : Looking op := by
  obtain ⟨name, -, rfl⟩ := reads
  exact ⟨name, rfl⟩

theorem reads_readToString {names : List String} {name : String}
    (member : name ∈ names) : Uses (Reads names) (readToString name) := by
  apply uses_bind (uses_perform (reads_read member))
  intro reply
  cases reply with
  | ok bytes => exact uses_pure _
  | error error => exact uses_pure _

theorem uses_readToString (name : String) :
    Uses Looking (readToString name) :=
  (reads_readToString (List.mem_singleton_self name)).mono
    fun _ reads => reads.looking

theorem uses_readOrEmpty (name : String) :
    Uses Looking (readOrEmpty name) := by
  apply uses_bind (uses_perform ⟨name, rfl⟩)
  intro reply
  cases reply with
  | ok bytes => exact uses_pure _
  | error error => exact uses_pure _

theorem reads_readKey {names : List String} (member : "key.bin" ∈ names) :
    Uses (Reads names) v.readKey.run := by
  apply uses_exceptBind (uses_orFail (uses_perform (reads_read member)))
  intro stored
  exact uses_pure _

theorem uses_readKey : Uses Looking v.readKey.run :=
  (reads_readKey (List.mem_singleton_self _)).mono fun _ reads => reads.looking

/-- The two files that a journal is read from. -/
def loadedFiles : List String :=
  ["key.bin", "vault.enc"]

theorem reads_load : Uses (Reads loadedFiles) v.load := by
  apply uses_bind (reads_readToString (by simp [loadedFiles]))
  intro token
  cases token with
  | none => exact uses_pure _
  | some token =>
      dsimp only
      apply uses_bind
      · apply uses_exceptBind (uses_pure _)
        intro blob
        apply uses_exceptBind (reads_readKey (by simp [loadedFiles]))
        rintro ⟨sign, enc⟩
        exact uses_pure _
      · intro result
        cases result with
        | ok plain => exact uses_pure _
        | error error => exact uses_pure _

theorem uses_load : Uses Looking v.load :=
  reads_load.mono fun _ reads => reads.looking

/-- A program that only looks is at its result with nothing changed. -/
theorem guarded_looking {α : Type} {program : FileProgram α}
    (uses : Uses Looking program) {always : Host → Prop}
    {post : α → Host → Prop} {host : Host} (before : always host)
    (met : post (run serve program host).1 host) :
    Guarded serve always post program host := by
  have same : id (run serve program host).2 = id host :=
    uses.run_eq (fun _ current looking => serve_looking looking current) host
  apply Guarded.of_run
  · exact uses.guarded
      (fun op current looking held => by
        rw [serve_looking looking]
        exact held)
      before
  · rw [id, id] at same
    rw [same]
    exact met

theorem guarded_load {always : Host → Prop}
    {post : Option (List Json.Value) → Host → Prop} {host : Host}
    (before : always host)
    (met : post (v.opened (host.file "key.bin") (host.file "vault.enc")) host) :
    Guarded serve always post v.load host := by
  apply guarded_looking uses_load before
  rw [run_load]
  exact met

theorem confined_looking {α : Type} {names : List String}
    {program : FileProgram α} (uses : Uses Looking program) :
    Confined names program :=
  confined_reading (uses.mono fun _ looking => looking.reading)

/-- A token made under a key file: the signature is that of the key's signing
half, over a body of the right shape. -/
def MadeUnder (v : Vault) (key : Option Bytes) (token : String) : Prop :=
  ∃ stored sign enc body,
    key = some stored ∧ v.keyHalves stored = .ok (sign, enc) ∧
      25 ≤ body.length ∧ body.head? = some 0x80 ∧
      token = Base64Url.encode (body ++ (v.crypto.hmac sign body).val)

theorem guarded_fernetEncrypt (plain : Bytes) (host : Host) :
    Guarded serve (AgreeOff [] host)
      (fun result _ => ∀ token, result = .ok token →
        MadeUnder v (host.file "key.bin") token)
      (v.fernetEncrypt plain).run host := by
  unfold fernetEncrypt
  apply guarded_exceptBind
  apply guarded_looking uses_readKey (AgreeOff.refl [] host)
  rw [run_readKey]
  cases found : host.file "key.bin" with
  | none =>
      intro token impossible
      cases impossible
  | some stored =>
      dsimp only
      rcases halves : v.keyHalves stored with error | ⟨sign, enc⟩
      · intro token impossible
        cases impossible
      dsimp only
      apply guarded_exceptBind
      apply guarded_orFail
      have drawing : Op.Reading .random := trivial
      apply guarded_reading drawing (AgreeOff.refl [] host)
      intro drawn agreeDrawn
      refine ⟨agreeDrawn, ?_⟩
      dsimp only [serve]
      apply guarded_exceptBind
      apply guarded_bind
      have ticking : Op.Reading .clock := trivial
      apply guarded_reading ticking agreeDrawn
      intro ticked agreeTicked
      have agree := agreeDrawn.trans agreeTicked
      refine ⟨agree, guarded_pure agree ?_⟩
      apply guarded_exceptBind
      apply guarded_pure agree
      cases v.crypto.encryptPadded enc ((host.draws host.used).val.take 16)
        plain with
      | error error =>
          intro token impossible
          cases impossible
      | ok cipher =>
          apply guarded_pure agree
          intro token made
          have drawn32 := (host.draws host.used).property
          refine ⟨stored, sign, enc, _, rfl, halves, ?_, ?_,
            (Except.ok.inj made).symm⟩
          · simp [beU64, drawn32]
          · rfl

theorem confined_fernetEncrypt (plain : Bytes) :
    Confined [] (v.fernetEncrypt plain).run := by
  have draws : Op.Reading .random := trivial
  have ticks : Op.Reading .clock := trivial
  apply confined_exceptBind (confined_looking uses_readKey)
  rintro ⟨sign, enc⟩
  apply confined_exceptBind
    (confined_reading (uses_orFail (uses_perform draws)))
  intro draw
  apply confined_exceptBind
    (confined_lift (confined_reading (uses_perform ticks)))
  intro now
  apply confined_exceptBind (confined_pure _)
  intro cipher
  exact confined_pure _

theorem confined_writeStatus :
    Confined ["status.tmp", "status.json"] v.writeStatus.run := by
  unfold writeStatus
  apply confined_exceptBind
    (confined_lift (confined_looking (uses_readOrEmpty "vault.enc")))
  intro enc
  apply confined_exceptBind (confined_lift (confined_looking uses_load))
  intro sealed
  apply confined_exceptBind (confined_lift (confined_looking uses_load))
  intro entries
  apply confined_exceptBind
    (confined_lift (confined_looking (uses_readToString "access.log")))
  intro log
  apply confined_exceptBind
    (confined_lift (confined_looking (uses_readToString "marker.txt")))
  intro marker
  exact confined_writeMode "status.json" _ 0o644 (by decide)

theorem confined_freshStatus {names : List String} :
    Confined names freshStatus := by
  have aged : Op.Reading (.age "status.json") := trivial
  apply confined_bind (confined_reading (uses_perform aged))
  intro age
  cases age with
  | none => exact confined_pure _
  | some seconds =>
      dsimp only
      split
      · exact confined_looking (uses_readToString "status.json")
      · exact confined_pure _

theorem confined_publicStatus :
    Confined ["status.tmp", "status.json"] v.publicStatus := by
  unfold publicStatus
  apply confined_bind confined_freshStatus
  intro fresh
  split
  · exact confined_pure _
  · apply confined_bind confined_writeStatus
    intro written
    apply confined_bind
      (confined_looking (uses_readToString "status.json"))
    intro text
    split <;> exact confined_pure _

theorem confined_health :
    Confined ["status.tmp", "status.json"] v.health := by
  apply confined_bind (confined_looking uses_load)
  intro entries
  apply confined_bind confined_publicStatus
  intro status
  exact confined_pure _

theorem confined_read :
    Confined ["access.log", "status.tmp", "status.json"] v.read.run := by
  unfold read
  apply confined_exceptBind (confined_lift (confined_looking uses_load))
  intro before
  apply confined_exceptBind
    ((confined_logAccess "READ" _).mono (by simp))
  intro _
  apply confined_exceptBind (confined_lift (confined_looking uses_load))
  intro entries
  cases entries with
  | none => exact confined_pure _
  | some entries =>
      apply confined_exceptBind
        (confined_lift (confined_looking (uses_readToString "access.log")))
      intro log
      apply confined_exceptBind (confined_writeStatus.mono (by simp))
      intro _
      exact confined_pure _

/-- What an append does behind the journal. -/
theorem confined_afterAppend (count : Nat) :
    Confined ["access.log", "status.tmp", "status.json"]
      (do
        v.logAccess "APPEND" (toString count)
        v.writeStatus
        pure count : Fallible Nat).run := by
  apply confined_exceptBind ((confined_logAccess "APPEND" _).mono (by simp))
  intro _
  apply confined_exceptBind (confined_writeStatus.mono (by simp))
  intro _
  exact confined_pure _

theorem confined_append (entry : String) :
    Confined
      ["vault.tmp", "vault.enc", "access.log", "status.tmp", "status.json"]
      (v.append entry).run := by
  unfold append
  apply confined_exceptBind (confined_lift (confined_looking uses_load))
  intro before
  cases before with
  | none => exact confined_pure _
  | some before =>
      have ticking : Op.Reading .clock := trivial
      apply confined_exceptBind
        (confined_lift (confined_reading (uses_perform ticking)))
      intro now
      apply confined_exceptBind ((confined_fernetEncrypt _).mono (by simp))
      intro token
      apply confined_exceptBind
        ((confined_writeMode "vault.enc" _ 0o600 (by decide)).mono
          (by decide))
      intro _
      exact (confined_afterAppend _).mono (by simp)

/-- The journal overwritten with NULs of its own size. -/
def nulls (host : Host) : Bytes :=
  List.replicate (((host.file "vault.enc").map List.length).getD 1) 0

/-- How far a wipe that began at `host` can have come: nothing is lost yet, or
the key is gone and the journal is the old one or NULs. -/
structure WipeStage (host now : Host) : Prop where
  stage : (now.file "key.bin" = host.file "key.bin" ∧
      now.file "vault.enc" = host.file "vault.enc") ∨
    (now.file "key.bin" = none ∧
      (now.file "vault.enc" = host.file "vault.enc" ∨
        now.file "vault.enc" = some (nulls host)))
  draws : now.draws = host.draws
  used : host.used ≤ now.used

/-- What a finished wipe leaves. -/
structure Wiped (host after : Host) : Prop where
  key : after.file "key.bin" = none
  token : after.file "token.bin" = none
  journal : after.file "vault.enc" = some (nulls host)

theorem Wiped.of_agreeOff {host before after : Host} {names : List String}
    (wiped : Wiped host before) (agree : AgreeOff names before after)
    (off : ∀ name ∈ ["key.bin", "token.bin", "vault.enc"], name ∉ names) :
    Wiped host after := by
  refine ⟨?_, ?_, ?_⟩
  · rw [agree.files "key.bin" (off _ (by simp)), wiped.key]
  · rw [agree.files "token.bin" (off _ (by simp)), wiped.token]
  · rw [agree.files "vault.enc" (off _ (by simp)), wiped.journal]

theorem Wiped.stage {host after : Host} (wiped : Wiped host after)
    (draws : after.draws = host.draws) (used : host.used ≤ after.used) :
    WipeStage host after :=
  ⟨Or.inr ⟨wiped.key, Or.inr wiped.journal⟩, draws, used⟩

/-- The end of a wipe, behind the journal: nothing comes back. -/
theorem guarded_afterJournal {α : Type} {names : List String}
    {program : FileProgram α} (confined : Confined names program)
    (off : ∀ name ∈ ["key.bin", "token.bin", "vault.enc"], name ∉ names)
    {host start : Host} (wiped : Wiped host start)
    (draws : start.draws = host.draws) (used : host.used ≤ start.used) :
    Guarded serve (WipeStage host)
      (fun _ after => Wiped host after ∧ after.draws = host.draws ∧
        host.used ≤ after.used)
      program start := by
  have kept (after : Host) (agree : AgreeOff names start after) :
      Wiped host after ∧ after.draws = host.draws ∧ host.used ≤ after.used :=
    ⟨wiped.of_agreeOff agree off, agree.draws.trans draws,
      used.trans agree.used⟩
  apply (confined.files start).mono
  · intro after agree
    obtain ⟨stillWiped, sameDraws, laterUsed⟩ := kept after agree
    exact stillWiped.stage sameDraws laterUsed
  · intro _ after agree _
    exact kept after agree

theorem guarded_sizeOrOne {always : Host → Prop} {post : Nat → Host → Prop}
    {name : String} {host : Host} (before : always host)
    (met : post (((host.file name).map List.length).getD 1) host) :
    Guarded serve always post (sizeOrOne name) host := by
  apply guarded_bind
  cases found : host.file name with
  | some bytes =>
      have step : serve (.size name) host = (.ok bytes.length, host) := by
        simp only [serve, found]
      apply guarded_perform_of_eq step before
      refine ⟨before, guarded_pure before ?_⟩
      simpa [found] using met
  | none =>
      have step : serve (.size name) host = (.error .notFound, host) := by
        simp only [serve, found]
      apply guarded_perform_of_eq step before
      refine ⟨before, guarded_pure before ?_⟩
      simpa [found] using met

/-- The key is being removed. -/
theorem wipeStage_of_key {host now : Host}
    (removing : Removing host "key.bin" now) : WipeStage host now := by
  have journal := removing.others "vault.enc" (by decide)
  refine ⟨?_, removing.streams.draws, removing.streams.used.ge⟩
  rcases removing.target with same | gone
  · exact Or.inl ⟨same, journal⟩
  · exact Or.inr ⟨gone, Or.inl journal⟩

/-- The token is being removed, behind the key. -/
theorem wipeStage_of_token {host keyless now : Host}
    (removingKey : Removing host "key.bin" keyless)
    (keyGone : keyless.file "key.bin" = none)
    (removing : Removing keyless "token.bin" now) : WipeStage host now := by
  have key := (removing.others "key.bin" (by decide)).trans keyGone
  have journal := (removing.others "vault.enc" (by decide)).trans
    (removingKey.others "vault.enc" (by decide))
  refine ⟨Or.inr ⟨key, Or.inl journal⟩, ?_, ?_⟩
  · exact removing.streams.draws.trans removingKey.streams.draws
  · exact (removing.streams.used.trans removingKey.streams.used).ge

/-- The journal is being overwritten, behind the key. -/
theorem WipeStage.of_journal {host before now : Host}
    (stage : WipeStage host before) (keyGone : before.file "key.bin" = none)
    (rewriting : Rewriting before "vault.enc" "vault.tmp" (nulls host) now) :
    WipeStage host now := by
  have key := (rewriting.others "key.bin" (by decide) (by decide)).trans
    keyGone
  refine ⟨Or.inr ⟨key, ?_⟩, rewriting.draws.trans stage.draws,
    stage.used.trans rewriting.used⟩
  rcases rewriting.target with same | replaced
  · rcases stage.stage with ⟨_, journal⟩ | ⟨_, journal | journal⟩
    · exact Or.inl (same.trans journal)
    · exact Or.inl (same.trans journal)
    · exact Or.inr (same.trans journal)
  · exact Or.inr replaced

/-- What a wipe does behind the journal touches neither the keys nor the
journal. -/
theorem confined_afterWipe (reason : String) :
    Confined
      ["marker.tmp", "marker.txt", "access.log", "status.tmp", "status.json"]
      (do
        let stamp ← ExceptT.lift Os.stamp
        v.writeMode "marker.txt"
          (asBytes ("SEALED " ++ stamp ++ " / OPENED BY " ++ reason ++
            " / CONTENTS DESTROYED\n")) 0o644
        v.logAccess "WIPED" reason
        v.writeStatus : Fallible Unit).run := by
  have stamping : Op.Reading .stamp := trivial
  apply confined_exceptBind
    (confined_lift (confined_reading (uses_perform stamping)))
  intro stamp
  apply confined_exceptBind
    ((confined_writeMode "marker.txt" _ 0o644 (by decide)).mono (by decide))
  intro _
  apply confined_exceptBind ((confined_logAccess "WIPED" _).mono (by simp))
  intro _
  exact confined_writeStatus.mono (by simp)

/-- A wipe goes through its stages and ends with everything destroyed. -/
theorem guarded_wipe (reason : String) (host : Host) :
    Guarded serve (WipeStage host) (fun _ after => Wiped host after)
      (v.wipe reason).run host := by
  have untouched : WipeStage host host := ⟨Or.inl ⟨rfl, rfl⟩, rfl, le_rfl⟩
  unfold wipe
  apply guarded_exceptBind
  apply guarded_bind
  apply guarded_sizeOrOne untouched
  apply guarded_pure untouched
  -- The keys go first.
  apply guarded_exceptBind
  apply (guarded_unlink "key.bin" host).mono fun _ => wipeStage_of_key
  rintro _ keyless removingKey ⟨rfl, keyGone⟩
  apply guarded_exceptBind
  apply (guarded_unlink "token.bin" keyless).mono fun _ =>
    wipeStage_of_token removingKey keyGone
  rintro _ tokenless removingToken ⟨rfl, tokenGone⟩
  have beforeJournal := wipeStage_of_token removingKey keyGone removingToken
  have keyStillGone : tokenless.file "key.bin" = none :=
    (removingToken.others "key.bin" (by decide)).trans keyGone
  -- Then the journal, by a rename.
  apply guarded_exceptBind
  apply (guarded_writeJournal (nulls host) tokenless).mono fun _ =>
    beforeJournal.of_journal keyStillGone
  rintro _ zeroed rewriting ⟨rfl, replaced⟩
  have afterZeroed := beforeJournal.of_journal keyStillGone rewriting
  have wiped : Wiped host zeroed :=
    ⟨(rewriting.others "key.bin" (by decide) (by decide)).trans keyStillGone,
      (rewriting.others "token.bin" (by decide) (by decide)).trans tokenGone,
      replaced⟩
  apply (guarded_afterJournal (confined_afterWipe reason) (by decide) wiped
    afterZeroed.draws afterZeroed.used).mono fun _ stage => stage
  intro _ after _ finished
  exact finished.1

end Vault
