import Loa.VaultSeal

/-!
# Gone is gone

Once a wipe has taken the key away, no later restart or command opens the
journal again, wherever any of them is cut off.  The journal stays in its place,
as the old bytes or as NULs, so that a restart finds a file and makes no new
one; the key a restart makes is another key.
-/

namespace Vault

open FileDirectory RustText Program

variable {v : Vault}

/-- The journal is a token that carries the signature of this key. -/
def Signed (v : Vault) (sign journal : Bytes) : Prop :=
  ∃ text blob, fromUtf8 journal = some text ∧
    v.tokenBlob (trim text) = .ok blob ∧
    (v.crypto.hmac sign (blob.take (blob.length - 32))).val =
      blob.drop (blob.length - 32)

/-- Signing keys of the code's size sign no message alike. -/
def HmacSeparates (crypto : Crypto) : Prop :=
  ∀ first second : Bytes, first.length = 16 → second.length = 16 →
    first ≠ second → ∀ message, crypto.hmac first message ≠
      crypto.hmac second message

theorem length_of_keyHalves {stored sign enc : Bytes}
    (halves : v.keyHalves stored = .ok (sign, enc)) : sign.length = 16 := by
  unfold keyHalves at halves
  split at halves
  · cases halves
  · rename_i raw _
    split at halves
    · cases halves
    · rename_i sized
      simp only [Except.ok.injEq, Prod.mk.injEq] at halves
      rw [← halves.1, List.length_take]
      omega

theorem stripPad_encode (bytes : Bytes) :
    stripPad (asBytes (Base64Url.encode bytes)) =
      asBytes (Base64Url.encode bytes) := by
  unfold stripPad
  rw [Base64Url.asBytes_encode, ← List.map_reverse]
  have small : ∀ value ∈ (Base64Url.splitValues bytes).reverse, value < 64 :=
    fun value member =>
      Base64Url.splitValues_lt bytes value (List.mem_reverse.mp member)
  cases listed : (Base64Url.splitValues bytes).reverse with
  | nil => simp_all
  | cons value rest =>
      have plain := (Base64Url.symbol_plain (small value (by simp [listed]))).2.2
      rw [List.map_cons, List.dropWhile_cons_of_neg (by simpa using plain),
        ← List.map_cons (f := fun value => UInt8.ofNat (Base64Url.symbol value).toNat),
        ← listed, ← List.map_reverse, List.reverse_reverse]

/-- A key file made from a draw reads as the halves of the draw. -/
theorem keyHalves_encode (draw : Block) :
    v.keyHalves (asBytes (Base64Url.encode draw.val)) =
      .ok (draw.val.take 16, draw.val.drop 16) := by
  unfold keyHalves
  rw [stripPad_encode, Base64Url.decode_encode]
  simp [draw.property]

theorem tokenBlob_encode {blob : Bytes} (long : 57 ≤ blob.length)
    (version : blob.head? = some 0x80) :
    v.tokenBlob (Base64Url.encode blob) = .ok blob := by
  unfold tokenBlob
  rw [Base64Url.trimEndMatches_encode blob fun value small => by
    simpa using (Base64Url.symbol_plain small).2.1]
  simp only [Base64Url.decode_encode]
  rw [if_neg]
  rintro (short | other)
  · omega
  · exact other version

/-- A token made under a key carries the key's signature. -/
theorem signed_of_madeUnder {stored sign enc : Bytes} {text : String}
    (halves : v.keyHalves stored = .ok (sign, enc))
    (made : MadeUnder v (some stored) text) : Signed v sign (asBytes text) := by
  obtain ⟨other, otherSign, otherEnc, body, sameStored, otherHalves, long,
    version, rfl⟩ := made
  cases sameStored
  rw [halves] at otherHalves
  cases otherHalves
  have tag := (v.crypto.hmac sign body).property
  refine ⟨_, body ++ (v.crypto.hmac sign body).val, fromUtf8_asBytes _, ?_, ?_⟩
  · rw [Base64Url.trim_encode]
    apply tokenBlob_encode
    · simp only [List.length_append, tag]
      omega
    · rw [List.head?_append, version]
      rfl
  · have size : (body ++ (v.crypto.hmac sign body).val).length - 32 =
        body.length := by
      rw [List.length_append, tag, Nat.add_sub_cancel]
    rw [size, List.take_left, List.drop_left]

/-- A journal carries the signature of one key only. -/
theorem signed_unique (separates : HmacSeparates v.crypto)
    {first second journal : Bytes} (firstSize : first.length = 16)
    (secondSize : second.length = 16) (byFirst : Signed v first journal)
    (bySecond : Signed v second journal) : first = second := by
  obtain ⟨text, blob, readable, isBlob, firstTag⟩ := byFirst
  obtain ⟨_, _, sameText, sameBlob, secondTag⟩ := bySecond
  cases readable.symm.trans sameText
  cases isBlob.symm.trans sameBlob
  by_contra differ
  exact separates first second firstSize secondSize differ _
    (Subtype.ext (firstTag.trans secondTag.symm))

/-- A journal that opens carries the signature of the key file's signing
half. -/
theorem signed_of_opened {key journal : Option Bytes}
    {entries : List Json.Value}
    (opens : v.opened key journal = some entries) :
    ∃ stored sign enc bytes, key = some stored ∧
      v.keyHalves stored = .ok (sign, enc) ∧ journal = some bytes ∧
      Signed v sign bytes := by
  unfold opened at opens
  split at opens
  · rename_i blob shaped
    obtain ⟨text, readable, isBlob⟩ := Option.map_eq_some_iff.mp shaped
    obtain ⟨bytes, present, decoded⟩ := Option.bind_eq_some_iff.mp readable
    split at opens
    · rename_i sign enc keyed
      obtain ⟨stored, found, halves⟩ := Option.map_eq_some_iff.mp keyed
      refine ⟨stored, sign, enc, bytes, found, halves, present, text, blob,
        decoded, isBlob, ?_⟩
      by_contra differs
      have mismatch : constantTimeEq
          (v.crypto.hmac sign (blob.take (blob.length - 32))).val
          (blob.drop (blob.length - 32)) = false := by
        rw [Bool.eq_false_iff, Ne, constantTimeEq_iff]
        exact differs
      simp [openToken, mismatch] at opens
    · cases opens
  · cases opens

/-- A run of NULs is nobody's journal. -/
theorem not_signed_nulls (sign : Bytes) (size : Nat) :
    ¬ Signed v sign (List.replicate size 0) := by
  rintro ⟨text, blob, readable, isBlob, -⟩
  have nul : asBytes (String.ofList (List.replicate size (Char.ofNat 0))) =
      List.replicate size 0 := by
    have symbol : String.utf8EncodeChar (Char.ofNat 0) = [0] := by decide
    unfold asBytes
    rw [String.toList_ofList, List.flatMap_replicate, symbol]
    simp
  rw [← nul, fromUtf8_asBytes, Option.some.injEq] at readable
  subst text
  rw [trim_replicate (by decide)] at isBlob
  unfold tokenBlob at isBlob
  rw [trimEndMatches_replicate (by decide), nul] at isBlob
  cases size with
  | zero => simp [Base64Url.decode, Base64Url.joinValues] at isBlob
  | succ size =>
      have member : (0 : UInt8) ∈ List.replicate (size + 1) 0 := by simp
      have refused := Base64Url.decode_eq_none member (by decide)
      simp [refused] at isBlob

/-- An append that began at `host` is under way: the journal is as before, or
the old one opened and the new one is made under the same key. -/
structure Appending (v : Vault) (host now : Host) : Prop where
  key : now.file "key.bin" = host.file "key.bin"
  journal : now.file "vault.enc" = host.file "vault.enc" ∨
    (∃ entries,
      v.opened (host.file "key.bin") (host.file "vault.enc") = some entries) ∧
    ∃ text, MadeUnder v (host.file "key.bin") text ∧
      now.file "vault.enc" = some (asBytes text)
  draws : now.draws = host.draws
  used : host.used ≤ now.used

theorem Appending.of_agreeOff {host before after : Host}
    {names : List String} (appending : Appending v host before)
    (agree : AgreeOff names before after)
    (off : ∀ name ∈ ["key.bin", "vault.enc"], name ∉ names) :
    Appending v host after := by
  have key := agree.files "key.bin" (off _ (by decide))
  have journal := agree.files "vault.enc" (off _ (by decide))
  refine ⟨key.trans appending.key, ?_, agree.draws.trans appending.draws,
    appending.used.trans agree.used⟩
  rw [journal]
  exact appending.journal

theorem Appending.refl (host : Host) : Appending v host host :=
  ⟨rfl, Or.inl rfl, rfl, le_rfl⟩

/-- The journal of an append is being written. -/
theorem Appending.of_rewriting {host before now : Host} {text : String}
    (appending : Appending v host before)
    (opens : ∃ entries,
      v.opened (host.file "key.bin") (host.file "vault.enc") = some entries)
    (made : MadeUnder v (host.file "key.bin") text)
    (rewriting : Rewriting before "vault.enc" "vault.tmp" (asBytes text) now) :
    Appending v host now := by
  refine ⟨?_, ?_, rewriting.draws.trans appending.draws,
    appending.used.trans rewriting.used⟩
  · rw [rewriting.others "key.bin" (by decide) (by decide)]
    exact appending.key
  · rcases rewriting.target with old | new
    · rw [old]
      exact appending.journal
    · exact Or.inr ⟨opens, text, made, new⟩

/-- An append to a journal that does not open ends with an error. -/
theorem guarded_appendEntry (entry : String) (host : Host) :
    Guarded serve (Appending v host)
      (fun result _ =>
        v.opened (host.file "key.bin") (host.file "vault.enc") = none →
          result = .error "vault gone")
      (v.append entry).run host := by
  unfold append
  apply guarded_exceptBind
  apply guarded_bind
  apply guarded_load (Appending.refl host)
  apply guarded_pure (Appending.refl host)
  cases opens : v.opened (host.file "key.bin") (host.file "vault.enc") with
  | none => exact guarded_pure (Appending.refl host) fun _ => rfl
  | some before =>
      dsimp only
      have unreached {result : Except String Nat} :
          some before = none → result = .error "vault gone" := by
        intro impossible
        cases impossible
      have ticking : Op.Reading .clock := trivial
      apply guarded_exceptBind
      apply guarded_bind
      apply guarded_reading ticking (Appending.refl host)
      intro ticked agreeTicked
      have whileTicked := (Appending.refl (v := v) host).of_agreeOff
        agreeTicked (by simp)
      refine ⟨whileTicked, guarded_pure whileTicked ?_⟩
      apply guarded_exceptBind
      apply (guarded_fernetEncrypt _ ticked).mono
      · exact fun after agree => whileTicked.of_agreeOff agree (by simp)
      intro result encrypted agreeEncrypted made
      cases result with
      | error error => exact unreached
      | ok text =>
          have whileEncrypted :=
            whileTicked.of_agreeOff agreeEncrypted (by simp)
          have madeUnder : MadeUnder v (host.file "key.bin") text := by
            rw [← agreeTicked.files "key.bin" List.not_mem_nil]
            exact made text rfl
          have underway (after : Host)
              (rewriting : Rewriting encrypted "vault.enc" "vault.tmp"
                (asBytes text) after) : Appending v host after :=
            whileEncrypted.of_rewriting ⟨before, opens⟩ madeUnder rewriting
          apply guarded_exceptBind
          apply (guarded_writeJournal (asBytes text) encrypted).mono underway
          rintro _ filed rewriting ⟨rfl, -⟩
          -- The log and the status are other files.
          exact ((confined_afterAppend _).files filed).mono
            (fun after agree =>
              (underway filed rewriting).of_agreeOff agree (by decide))
            fun _ _ _ _ => unreached

/-- A read of a journal that does not open ends with an error. -/
theorem guarded_readEntries (host : Host) :
    Guarded serve (AgreeOff ["access.log", "status.tmp", "status.json"] host)
      (fun result _ =>
        v.opened (host.file "key.bin") (host.file "vault.enc") = none →
          ∃ text, result = .error text)
      v.read.run host := by
  apply (confined_read.files host).of_run
  intro shut
  unfold read
  rw [run_exceptBind, run_exceptLift, run_load]
  dsimp only
  rw [run_exceptBind]
  generalize toString (Option.getD _ 0) = detail
  have agree :=
    ((confined_logAccess (v := v) "READ" detail).files host).run_post.1
  generalize run serve (v.logAccess "READ" detail).run host = logged at agree ⊢
  rcases logged with ⟨_ | _, after⟩
  · exact ⟨_, rfl⟩
  · have stillShut :
        v.opened (after.file "key.bin") (after.file "vault.enc") = none := by
      rw [agree.files "key.bin" (by decide),
        agree.files "vault.enc" (by decide)]
      exact shut
    dsimp only
    rw [run_exceptBind, run_exceptLift, run_load, stillShut]
    exact ⟨_, rfl⟩

/-- What can happen to a vault: a process starts, the status is asked for, or a
command comes in. -/
inductive Deed
  | restart
  | status
  | command (cx : Cortex) (command : Command)

def Deed.program (v : Vault) : Deed → FileProgram Unit
  | .restart => do
      let _ ← v.ensure.run
      pure ()
  | .status => do
      let _ ← v.publicStatus
      pure ()
  | .command cx given => do
      let _ ← given.program v cx
      pure ()

/-- A deed that ends, or that a crash cuts off after some calls. -/
structure Happening where
  deed : Deed
  crash : Option Nat

def Happening.after (v : Vault) (host : Host) (happening : Happening) :
    Host :=
  match happening.crash with
  | none => (run serve (happening.deed.program v) host).2
  | some count => (happening.deed.program v).cut serve count host

def afterAll (v : Vault) (host : Host) (happenings : List Happening) : Host :=
  happenings.foldl (Happening.after v) host

/-- What a deed that began at `host` may have done to the key and the journal by
now. -/
inductive Moved (v : Vault) (host now : Host) : Prop
  | boot (booting : Booting v host now)
  | append (appending : Appending v host now)
  | wipe (stage : WipeStage host now)

theorem moved_of_agreeOff {host now : Host} {names : List String}
    (agree : AgreeOff names host now)
    (off : ∀ name ∈ ["key.bin", "vault.enc"], name ∉ names) :
    Moved v host now :=
  .append ((Appending.refl host).of_agreeOff agree off)

/-- Behind the seal, a journal that does not open is answered as gone. -/
theorem guarded_behind {answer : FileProgram Json.Value}
    (behind : Behind v answer) (host : Host) :
    Guarded serve (Moved v host)
      (fun body _ =>
        v.opened (host.file "key.bin") (host.file "vault.enc") = none →
          body = gone)
      answer host := by
  cases behind with
  | append entry =>
      apply guarded_bind
      apply (guarded_appendEntry entry host).mono
      · exact fun after appending => .append appending
      intro result after appending answered
      cases result with
      | ok count =>
          apply guarded_pure (.append appending)
          intro shut
          cases answered shut
      | error error => exact guarded_pure (.append appending) fun _ => rfl
  | read =>
      apply guarded_bind
      apply (guarded_readEntries host).mono
      · exact fun after agree => moved_of_agreeOff agree (by decide)
      intro result after agree answered
      have moved := moved_of_agreeOff (v := v) agree (by decide)
      cases result with
      | ok found =>
          apply guarded_pure moved
          intro shut
          obtain ⟨text, impossible⟩ := answered shut
          cases impossible
      | error error => exact guarded_pure moved fun _ => rfl

/-- Behind the seal or before it, what happens is an answer or a wipe. -/
theorem guarded_sealedCommand {answer : FileProgram Json.Value}
    (behind : Behind v answer) (token : Option String) (reason : String)
    (host : Host) :
    Guarded serve (Moved v host)
      (fun out _ =>
        v.opened (host.file "key.bin") (host.file "vault.enc") = none →
          out = .forbidden ∨ out = .good gone)
      (Cortex.sealedCommand v token reason answer) host := by
  have untouched : Moved v host host := .append (Appending.refl host)
  unfold Cortex.sealedCommand
  apply guarded_bind
  apply guarded_looking (uses_checkToken _) untouched
  cases (run serve (v.checkToken (token.getD "")) host).1 with
  | true =>
      rw [if_pos rfl]
      apply guarded_bind
      apply (guarded_behind behind host).mono (fun _ moved => moved)
      intro body after moved answered
      apply guarded_pure moved
      intro shut
      exact Or.inr (congrArg Cortex.Out.good (answered shut))
  | false =>
      rw [if_neg Bool.false_ne_true]
      apply guarded_bind
      apply (guarded_wipe reason host).mono
      · exact fun after stage => .wipe stage
      intro result after stage _
      exact guarded_pure (.wipe stage) fun _ => Or.inl rfl

theorem guarded_command (cx : Cortex) (command : Command) (host : Host) :
    Guarded serve (Moved v host)
      (fun dispatched _ => command.Asks →
        v.opened (host.file "key.bin") (host.file "vault.enc") = none →
          dispatched.out = .forbidden ∨ dispatched.out = .good gone)
      (command.program v cx) host := by
  by_cases asks : command.Asks
  · obtain ⟨reason, answer, behind, isProgram⟩ := program_of_asks (v := v) asks
    rw [isProgram]
    apply guarded_bind
    apply (guarded_sealedCommand behind command.token reason host).mono
      (fun _ moved => moved)
    intro out after moved answered
    exact guarded_pure moved fun _ shut => answered shut
  · apply ((confined_of_not_asks asks).files host).mono
    · exact fun after agree => moved_of_agreeOff agree (by decide)
    · exact fun _ _ _ _ asked => absurd asked asks

theorem guarded_deed (deed : Deed) (host : Host) :
    Guarded serve (Moved v host) (fun _ _ => True) (deed.program v) host := by
  cases deed with
  | restart =>
      apply guarded_bind
      apply (guarded_ensure host).mono fun after booting => .boot booting
      exact fun _ after booting _ => guarded_pure (.boot booting) trivial
  | status =>
      apply guarded_bind
      apply (confined_publicStatus.files host).mono
      · exact fun after agree => moved_of_agreeOff agree (by decide)
      intro _ after agree _
      exact guarded_pure (moved_of_agreeOff agree (by decide)) trivial
  | command cx given =>
      apply guarded_bind
      apply (guarded_command cx given host).mono (fun _ moved => moved)
      exact fun _ after moved _ => guarded_pure moved trivial

/-- Finished or cut off, a deed has moved the vault by one of its stages. -/
theorem moved_after (host : Host) (happening : Happening) :
    Moved v host (happening.after v host) := by
  obtain ⟨deed, crash⟩ := happening
  cases crash with
  | none => exact (guarded_deed deed host).run_post.1
  | some count => exact (guarded_deed deed host).cut count

/-- The journal that was signed by `sign` is still in its place, or NULs are,
and no key that is yet to be drawn signs like it. -/
structure Alive (v : Vault) (sign : Bytes) (host : Host) : Prop where
  journal : ∃ journal, host.file "vault.enc" = some journal ∧
    (Signed v sign journal ∨ ∃ size, journal = List.replicate size 0)
  fresh : ∀ index, host.used ≤ index →
    (host.draws index).val.take 16 ≠ sign
  size : sign.length = 16

/-- The key that signed the journal is gone for good. -/
structure Dead (v : Vault) (sign : Bytes) (host : Host) : Prop
    extends Alive v sign host where
  key : ∀ stored, host.file "key.bin" = some stored →
    ∃ other enc, v.keyHalves stored = .ok (other, enc) ∧ other ≠ sign

variable {sign : Bytes} {host now : Host}

theorem Alive.dead_of_keyless (alive : Alive v sign host)
    (gone : host.file "key.bin" = none) : Dead v sign host := by
  refine ⟨alive, fun stored found => ?_⟩
  rw [gone] at found
  cases found

/-- A journal that opens was signed by `sign`, which is in the key file. -/
theorem Alive.key_of_opened (separates : HmacSeparates v.crypto)
    (alive : Alive v sign host) {entries : List Json.Value}
    (opens : v.opened (host.file "key.bin") (host.file "vault.enc") =
      some entries) :
    ∃ stored enc, host.file "key.bin" = some stored ∧
      v.keyHalves stored = .ok (sign, enc) := by
  obtain ⟨stored, other, enc, bytes, found, halves, present, signed⟩ :=
    signed_of_opened opens
  obtain ⟨journal, inPlace, bySign | ⟨size, rfl⟩⟩ := alive.journal
  · cases present.symm.trans inPlace
    have same : other = sign :=
      signed_unique separates (length_of_keyHalves halves) alive.size signed
        bySign
    exact ⟨stored, enc, found, same ▸ halves⟩
  · cases present.symm.trans inPlace
    exact absurd signed (not_signed_nulls other size)

theorem Dead.shut (separates : HmacSeparates v.crypto)
    (dead : Dead v sign host) :
    v.opened (host.file "key.bin") (host.file "vault.enc") = none := by
  cases opens : v.opened (host.file "key.bin") (host.file "vault.enc") with
  | none => rfl
  | some entries =>
      obtain ⟨stored, enc, found, halves⟩ :=
        dead.toAlive.key_of_opened separates opens
      obtain ⟨other, _, otherHalves, differ⟩ := dead.key stored found
      rw [halves] at otherHalves
      cases otherHalves
      exact absurd rfl differ

/-- The journal in `now` is the one in `host`, or NULs in its place. -/
def Kept (host now : Host) : Prop :=
  now.file "vault.enc" = host.file "vault.enc" ∨
    ∃ size, now.file "vault.enc" = some (List.replicate size 0)

theorem Alive.of_kept (alive : Alive v sign host) (kept : Kept host now)
    (draws : now.draws = host.draws) (used : host.used ≤ now.used) :
    Alive v sign now := by
  refine ⟨?_, fun index later => ?_, alive.size⟩
  · rcases kept with same | ⟨size, nulled⟩
    · rw [same]
      exact alive.journal
    · exact ⟨_, nulled, Or.inr ⟨size, rfl⟩⟩
  · rw [draws]
    exact alive.fresh index (used.trans later)

/-- As long as the journal is in its place, a boot leaves it there. -/
theorem Alive.kept_of_boot (alive : Alive v sign host)
    (booting : Booting v host now) : Kept host now := by
  rcases booting.journal with same | ⟨absent, -⟩
  · exact Or.inl same
  · obtain ⟨journal, present, -⟩ := alive.journal
    rw [absent] at present
    cases present

theorem WipeStage.kept (stage : WipeStage host now) : Kept host now := by
  rcases stage.stage with ⟨-, same⟩ | ⟨-, same | nulled⟩
  · exact Or.inl same
  · exact Or.inl same
  · exact Or.inr ⟨_, nulled⟩

theorem alive_of_moved (separates : HmacSeparates v.crypto)
    (alive : Alive v sign host) (moved : Moved v host now) :
    Alive v sign now := by
  cases moved with
  | boot booting =>
      exact alive.of_kept (alive.kept_of_boot booting) booting.draws
        booting.used
  | wipe stage => exact alive.of_kept stage.kept stage.draws stage.used
  | append appending =>
      rcases appending.journal with same | ⟨⟨entries, opens⟩, text, made, new⟩
      · exact alive.of_kept (Or.inl same) appending.draws appending.used
      · obtain ⟨stored, enc, found, halves⟩ :=
          alive.key_of_opened separates opens
        rw [found] at made
        refine ⟨⟨_, new, Or.inl (signed_of_madeUnder halves made)⟩,
          fun index later => ?_, alive.size⟩
        rw [appending.draws]
        exact alive.fresh index (appending.used.trans later)

theorem dead_of_moved (separates : HmacSeparates v.crypto)
    (dead : Dead v sign host) (moved : Moved v host now) :
    Dead v sign now ∧ Kept host now := by
  have alive := alive_of_moved separates dead.toAlive moved
  cases moved with
  | boot booting =>
      refine ⟨⟨alive, fun stored found => ?_⟩,
        dead.toAlive.kept_of_boot booting⟩
      rcases booting.key with same | ⟨_, index, later, made⟩
      · rw [same] at found
        exact dead.key stored found
      · cases found.symm.trans made
        exact ⟨_, _, keyHalves_encode _, dead.fresh index later⟩
  | wipe stage =>
      refine ⟨⟨alive, fun stored found => ?_⟩, stage.kept⟩
      rcases stage.stage with ⟨same, -⟩ | ⟨gone, -⟩
      · rw [same] at found
        exact dead.key stored found
      · cases found.symm.trans gone
  | append appending =>
      have kept : Kept host now := by
        rcases appending.journal with same | ⟨⟨entries, opens⟩, -⟩
        · exact Or.inl same
        · rw [dead.shut separates] at opens
          cases opens
      refine ⟨⟨alive, fun stored found => ?_⟩, kept⟩
      rw [appending.key] at found
      exact dead.key stored found

theorem alive_afterAll (separates : HmacSeparates v.crypto)
    (happenings : List Happening) (alive : Alive v sign host) :
    Alive v sign (afterAll v host happenings) := by
  induction happenings generalizing host with
  | nil => exact alive
  | cons happening rest induction =>
      exact induction
        (alive_of_moved separates alive (moved_after host happening))

theorem Kept.trans {first second third : Host} (early : Kept first second)
    (late : Kept second third) : Kept first third := by
  rcases late with same | nulled
  · rcases early with before | ⟨size, nulled⟩
    · exact Or.inl (same.trans before)
    · exact Or.inr ⟨size, same.trans nulled⟩
  · exact Or.inr nulled

theorem dead_afterAll (separates : HmacSeparates v.crypto)
    (happenings : List Happening) (dead : Dead v sign host) :
    Dead v sign (afterAll v host happenings) ∧
      Kept host (afterAll v host happenings) := by
  induction happenings generalizing host with
  | nil => exact ⟨dead, Or.inl rfl⟩
  | cons happening rest induction =>
      obtain ⟨stillDead, kept⟩ :=
        dead_of_moved separates dead (moved_after host happening)
      obtain ⟨inTheEnd, keptOn⟩ := induction stillDead
      exact ⟨inTheEnd, kept.trans keptOn⟩

/-- A vault as `ensure` leaves it: a key, and a journal signed by it. -/
structure Ensured (v : Vault) (sign : Bytes) (host : Host) : Prop where
  key : ∃ stored enc, host.file "key.bin" = some stored ∧
    v.keyHalves stored = .ok (sign, enc)
  journal : ∃ journal, host.file "vault.enc" = some journal ∧
    Signed v sign journal

/-- A boot that makes the key and the journal leaves an ensured vault. -/
theorem ensured_of_ensure (noKey : host.file "key.bin" = none)
    (noJournal : host.file "vault.enc" = none)
    (ended : (run serve v.ensure.run host).1 = .ok ()) :
    ∃ sign, Ensured v sign (run serve v.ensure.run host).2 := by
  obtain ⟨booting, finished⟩ := (guarded_ensure (v := v) host).run_post
  have ready := finished ended
  rcases booting.key with same | ⟨_, index, _, key⟩
  · have present := ready.key
    rw [same, noKey] at present
    cases present
  rcases booting.journal with same | ⟨_, text, made, journal⟩
  · have present := ready.journal
    rw [same, noJournal] at present
    cases present
  rw [key] at made
  exact ⟨_, ⟨_, _, key, keyHalves_encode _⟩,
    ⟨_, journal, signed_of_madeUnder (keyHalves_encode _) made⟩⟩

/-- What a vault that is gone answers: nothing opens, nothing is appended, and
who asks hears that it is gone or broken. -/
structure Gone (v : Vault) (host : Host) : Prop where
  load : (run serve v.load host).1 = none
  append : ∀ entry, ∃ text, (run serve (v.append entry).run host).1 = .error text
  read : ∃ text, (run serve v.read.run host).1 = .error text
  answers : ∀ (cx : Cortex) (command : Command), command.Asks →
    (run serve (command.program v cx) host).1.out = .forbidden ∨
      (run serve (command.program v cx) host).1.out = .good gone

theorem Dead.gone (separates : HmacSeparates v.crypto)
    (dead : Dead v sign host) : Gone v host := by
  have shut := dead.shut separates
  refine ⟨?_, fun entry => ?_, ?_, fun cx command asks => ?_⟩
  · rw [run_load]
    exact shut
  · exact ⟨_, (guarded_appendEntry entry host).run_post.2 shut⟩
  · exact (guarded_readEntries host).run_post.2 shut
  · exact (guarded_command cx command host).run_post.2 asks shut

/-- In every run from an ensured vault, once the key is gone the vault is gone
after every later run, and no other journal has taken the old one's place. -/
theorem gone_is_gone (v : Vault) (separates : HmacSeparates v.crypto)
    (sign : Bytes) (start : Host) (ensured : Ensured v sign start)
    (fresh : ∀ index, start.used ≤ index →
      (start.draws index).val.take 16 ≠ sign)
    (earlier later : List Happening)
    (destroyed : (afterAll v start earlier).file "key.bin" = none) :
    Gone v (afterAll v start (earlier ++ later)) ∧
      Kept (afterAll v start earlier)
        (afterAll v start (earlier ++ later)) := by
  obtain ⟨stored, enc, -, halves⟩ := ensured.key
  obtain ⟨journal, present, signed⟩ := ensured.journal
  have alive : Alive v sign start :=
    ⟨⟨journal, present, Or.inl signed⟩, fresh, length_of_keyHalves halves⟩
  have dead := (alive_afterAll separates earlier alive).dead_of_keyless
    destroyed
  have split : afterAll v start (earlier ++ later) =
      afterAll v (afterAll v start earlier) later :=
    List.foldl_append
  obtain ⟨inTheEnd, kept⟩ := dead_afterAll separates later dead
  rw [split]
  exact ⟨inTheEnd.gone separates, kept⟩

namespace Vectors

theorem hmac_separates : HmacSeparates vault.crypto := by
  intro first second firstSize secondSize differ message same
  have notToken {key : Bytes} (size : key.length = 16) :
      ¬ (key = tokenRaw ∧ message = SEAL_DOMAIN) := by
    rintro ⟨rfl, -⟩
    cases size
  change hmac first message = hmac second message at same
  unfold hmac at same
  rw [if_neg (notToken firstSize), if_neg (notToken secondSize)] at same
  have tagEnd : journalTag.val.drop 31 ≠ [0] := by decide
  have padEnd {key : Bytes} (size : key.length = 16) :
      ((key ++ List.replicate 32 (0 : UInt8)).take 32).drop 31 = [0] := by
    rw [List.take_append, size, List.take_of_length_le (by omega),
      List.drop_append, size, List.drop_of_length_le (by omega)]
    rfl
  split at same <;> split at same
  · rename_i byFirst bySecond
    exact differ (byFirst.1.trans bySecond.1.symm)
  · rw [same] at tagEnd
    exact tagEnd (padEnd secondSize)
  · rw [← same] at tagEnd
    exact tagEnd (padEnd firstSize)
  · have heads := congrArg (fun block : Block => block.val.take 16) same
    simp [List.take_append, firstSize, secondSize, List.take_of_length_le]
      at heads
    exact differ heads

end Vectors

end Vault
