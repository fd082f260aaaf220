import Loa.CortexVaultFiles

/-!
# What a boot does to the vault

`ensure` makes each of three files unless it is there.  Cut off at any moment,
it has left each file as it was or made it whole.
-/

namespace Vault

open FileDirectory RustText Program

variable {v : Vault}

/-- A boot that began at `host` is under way: each file is as it was, or it was
absent and has been made from fresh randomness. -/
structure Booting (v : Vault) (host now : Host) : Prop where
  key : now.file "key.bin" = host.file "key.bin" ∨
    (host.file "key.bin" = none ∧ ∃ index, host.used ≤ index ∧
      now.file "key.bin" =
        some (asBytes (Base64Url.encode (host.draws index).val)))
  token : now.file "token.bin" = host.file "token.bin" ∨
    (host.file "token.bin" = none ∧ ∃ index, host.used ≤ index ∧
      now.file "token.bin" = some (host.draws index).val)
  journal : now.file "vault.enc" = host.file "vault.enc" ∨
    (host.file "vault.enc" = none ∧ ∃ text,
      MadeUnder v (now.file "key.bin") text ∧
      now.file "vault.enc" = some (asBytes text))
  draws : now.draws = host.draws
  used : host.used ≤ now.used

theorem Booting.refl (host : Host) : Booting v host host :=
  ⟨Or.inl rfl, Or.inl rfl, Or.inl rfl, rfl, le_rfl⟩

/-- The three files of the vault. -/
def vaultFiles : List String :=
  ["key.bin", "token.bin", "vault.enc"]

/-- Changes to other files do not matter to a boot. -/
theorem Booting.of_agreeOff {host before after : Host} {names : List String}
    (booting : Booting v host before) (agree : AgreeOff names before after)
    (off : ∀ name ∈ vaultFiles, name ∉ names) : Booting v host after := by
  have key := agree.files "key.bin" (off _ (by decide))
  have token := agree.files "token.bin" (off _ (by decide))
  have journal := agree.files "vault.enc" (off _ (by decide))
  refine ⟨?_, ?_, ?_, agree.draws.trans booting.draws,
    booting.used.trans agree.used⟩
  · rw [key]
    exact booting.key
  · rw [token]
    exact booting.token
  · rw [key, journal]
    exact booting.journal

theorem guarded_ensureFile {always : Host → Prop}
    {post : Except String Unit → Host → Prop} {name : String}
    {make : Fallible Unit} {host : Host} (before : always host)
    (present : (host.file name).isSome → post (.ok ()) host)
    (absent : host.file name = none →
      Guarded serve always post make.run host) :
    Guarded serve always post (ensureFile name make).run host := by
  unfold ensureFile
  apply guarded_exceptBind
  apply guarded_bind
  have step : serve (.present name) host =
      ((host.directory.names name).isSome, host) := rfl
  apply guarded_perform_of_eq step before
  refine ⟨before, guarded_pure before ?_⟩
  cases pointed : host.directory.names name with
  | some inode =>
      apply guarded_pure before
      apply present
      simp [Host.file, Directory.file, pointed]
  | none =>
      apply absent
      simp [Host.file, Directory.file, pointed]

theorem guarded_makeFromDraw (name : String) (bytes : Block → Bytes)
    (mode : Nat) (host : Host) (apart : name ≠ withExtension name "tmp") :
    Guarded serve
      (Rewriting host name (withExtension name "tmp")
        (bytes (host.draws host.used)))
      (fun result after => result = .ok () ∧
        after.file name = some (bytes (host.draws host.used)))
      (do
        let raw ← rand32
        v.writeMode name (bytes raw) mode : Fallible Unit).run host := by
  apply guarded_exceptBind
  apply guarded_orFail
  have drawing : Op.Reading .random := trivial
  apply guarded_reading drawing (Rewriting.refl host name _ _)
  intro drawn agree
  refine ⟨(Rewriting.refl drawn name _ _).of_agreeOff agree, ?_⟩
  dsimp only [serve]
  exact (guarded_writeMode name _ mode drawn apart).mono
    (fun _ rewriting => rewriting.of_agreeOff agree)
    fun _ _ _ finished => finished

/-- The three files are there. -/
structure Ready (host : Host) : Prop where
  key : (host.file "key.bin").isSome
  token : (host.file "token.bin").isSome
  journal : (host.file "vault.enc").isSome

theorem guarded_ensure_status {host now : Host} (booting : Booting v host now)
    (ready : Ready now) :
    Guarded serve (Booting v host)
      (fun result after => result = .ok () → Ready after)
      v.writeStatus.run now := by
  have off : ∀ name ∈ vaultFiles, name ∉ ["status.tmp", "status.json"] := by
    decide
  apply (confined_writeStatus.files now).mono
  · exact fun after agree => booting.of_agreeOff agree off
  · intro result after agree _ _
    refine ⟨?_, ?_, ?_⟩
    · rw [agree.files "key.bin" (off _ (by decide))]
      exact ready.key
    · rw [agree.files "token.bin" (off _ (by decide))]
      exact ready.token
    · rw [agree.files "vault.enc" (off _ (by decide))]
      exact ready.journal

theorem guarded_ensure_journal {host now : Host} (booting : Booting v host now)
    (key : (now.file "key.bin").isSome)
    (token : (now.file "token.bin").isSome) :
    Guarded serve (Booting v host)
      (fun result after => result = .ok () → Ready after)
      (do
        ensureFile "vault.enc" do
          let token ← v.fernetEncrypt (asBytes "[]")
          v.writeMode "vault.enc" (asBytes token) 0o600
        v.writeStatus : Fallible Unit).run now := by
  apply guarded_exceptBind
  apply guarded_ensureFile booting
  · exact fun journal => guarded_ensure_status booting ⟨key, token, journal⟩
  intro absent
  have wasAbsent : host.file "vault.enc" = none := by
    rcases booting.journal with same | ⟨before, _⟩
    · exact same.symm.trans absent
    · exact before
  apply guarded_exceptBind
  apply (guarded_fernetEncrypt (asBytes "[]") now).mono
  · exact fun after agree => booting.of_agreeOff agree (by simp)
  intro result encrypted agree made
  cases result with
  | error error =>
      intro impossible
      cases impossible
  | ok text =>
      have stillBooting := booting.of_agreeOff agree (by simp)
      have same (name : String) : encrypted.file name = now.file name :=
        agree.files name (List.not_mem_nil)
      have written := guarded_writeJournal (v := v) (asBytes text) encrypted
      have underway (after : Host)
          (rewriting : Rewriting encrypted "vault.enc" "vault.tmp"
            (asBytes text) after) : Booting v host after := by
        have sameKey := rewriting.others "key.bin" (by decide) (by decide)
        have sameToken := rewriting.others "token.bin" (by decide) (by decide)
        refine ⟨?_, ?_, ?_, rewriting.draws.trans stillBooting.draws,
          stillBooting.used.trans rewriting.used⟩
        · rw [sameKey]
          exact stillBooting.key
        · rw [sameToken]
          exact stillBooting.token
        · rcases rewriting.target with old | new
          · rw [sameKey, old]
            exact stillBooting.journal
          · refine Or.inr ⟨wasAbsent, text, ?_, new⟩
            rw [sameKey, same]
            exact made text rfl
      apply written.mono underway
      rintro _ after rewriting ⟨rfl, journal⟩
      apply guarded_ensure_status (underway after rewriting)
      refine ⟨?_, ?_, ?_⟩
      · rw [rewriting.others "key.bin" (by decide) (by decide), same]
        exact key
      · rw [rewriting.others "token.bin" (by decide) (by decide), same]
        exact token
      · simp [journal]

theorem guarded_ensure_token {host now : Host} (booting : Booting v host now)
    (key : (now.file "key.bin").isSome) :
    Guarded serve (Booting v host)
      (fun result after => result = .ok () → Ready after)
      (do
        ensureFile "token.bin" do
          let raw ← rand32
          v.writeMode "token.bin" raw.val 0o600
        ensureFile "vault.enc" do
          let token ← v.fernetEncrypt (asBytes "[]")
          v.writeMode "vault.enc" (asBytes token) 0o600
        v.writeStatus : Fallible Unit).run now := by
  apply guarded_exceptBind
  apply guarded_ensureFile booting
  · exact fun token => guarded_ensure_journal booting key token
  intro absent
  have wasAbsent : host.file "token.bin" = none := by
    rcases booting.token with same | ⟨before, _⟩
    · exact same.symm.trans absent
    · exact before
  have written := guarded_makeFromDraw (v := v) "token.bin"
    (fun raw => raw.val) 0o600 now (by decide)
  have temporary : withExtension "token.bin" "tmp" = "token.tmp" := by decide
  rw [temporary] at written
  have underway (after : Host)
      (rewriting : Rewriting now "token.bin" "token.tmp"
        (now.draws now.used).val after) : Booting v host after := by
    have sameKey := rewriting.others "key.bin" (by decide) (by decide)
    have sameJournal := rewriting.others "vault.enc" (by decide) (by decide)
    refine ⟨?_, ?_, ?_, rewriting.draws.trans booting.draws,
      booting.used.trans rewriting.used⟩
    · rw [sameKey]
      exact booting.key
    · rcases rewriting.target with old | new
      · rw [old]
        exact booting.token
      · refine Or.inr ⟨wasAbsent, now.used, booting.used, ?_⟩
        rw [new, booting.draws]
    · rw [sameKey, sameJournal]
      exact booting.journal
  apply written.mono underway
  rintro _ after rewriting ⟨rfl, token⟩
  apply guarded_ensure_journal (underway after rewriting)
  · rw [rewriting.others "key.bin" (by decide) (by decide)]
    exact key
  · simp [token]

/-- Wherever a boot is cut off, each file is as it was or made whole; a boot
that ends well leaves all three. -/
theorem guarded_ensure (host : Host) :
    Guarded serve (Booting v host)
      (fun result after => result = .ok () → Ready after)
      v.ensure.run host := by
  unfold ensure
  have creating : Op.Reading .createDir := trivial
  apply guarded_exceptBind
  apply guarded_orFail
  apply guarded_reading creating (Booting.refl host)
  intro now agree
  have booting := (Booting.refl (v := v) host).of_agreeOff agree (by simp)
  refine ⟨booting, ?_⟩
  dsimp only [serve]
  apply guarded_exceptBind
  apply guarded_ensureFile booting
  · exact fun key => guarded_ensure_token booting key
  intro absent
  have wasAbsent : host.file "key.bin" = none :=
    (agree.files "key.bin" List.not_mem_nil).symm.trans absent
  have written := guarded_makeFromDraw (v := v) "key.bin"
    (fun raw => asBytes (Base64Url.encode raw.val)) 0o600 now (by decide)
  have temporary : withExtension "key.bin" "tmp" = "key.tmp" := by decide
  rw [temporary] at written
  have underway (after : Host)
      (rewriting : Rewriting now "key.bin" "key.tmp"
        (asBytes (Base64Url.encode (now.draws now.used).val)) after) :
      Booting v host after := by
    have sameToken := rewriting.others "token.bin" (by decide) (by decide)
    have sameJournal := rewriting.others "vault.enc" (by decide) (by decide)
    have old (name : String) : now.file name = host.file name :=
      agree.files name List.not_mem_nil
    refine ⟨?_, Or.inl (sameToken.trans (old _)),
      Or.inl (sameJournal.trans (old _)),
      rewriting.draws.trans booting.draws,
      booting.used.trans rewriting.used⟩
    rcases rewriting.target with same | new
    · exact Or.inl (same.trans (old _))
    · refine Or.inr ⟨wasAbsent, now.used, booting.used, ?_⟩
      rw [new, booting.draws]
  apply written.mono underway
  rintro _ after rewriting ⟨rfl, key⟩
  apply guarded_ensure_token (underway after rewriting)
  simp [key]

end Vault
