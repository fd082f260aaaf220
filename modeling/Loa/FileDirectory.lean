import Loa.OperationProgram
import Loa.RustFloat
import Loa.RustText

/-!
# One directory of files and the programs that work in it

Names point to inodes and inodes hold bytes, so that a file handle keeps meaning
the same file while names move by renaming.  No two names share an inode, which
the directory carries as a field: a write through a handle then changes the one
file that handle was opened on.

The operations are the system calls a program makes, one at a time.  Sources of
chance and time are streams that the host hands out in order.
-/

namespace FileDirectory

/-- Why an operation on a file failed. -/
inductive OsError
  | notFound
  | other (text : String)
  deriving DecidableEq, Repr

/-- The error's own words. -/
def OsError.text : OsError → String
  | .notFound => "No such file or directory (os error 2)"
  | .other text => text

/-- Thirty-two bytes, the size of one draw of randomness. -/
abbrev Block := { bytes : Bytes // bytes.length = 32 }

/-- The system calls on files, chance and time. -/
inductive Op
  | createDir
  | present (name : String)
  | read (name : String)
  | size (name : String)
  | age (name : String)
  | openTruncated (name : String) (mode : Nat)
  | openAppend (name : String) (mode : Nat)
  | write (file : Nat) (bytes : Bytes)
  | append (file : Nat) (bytes : Bytes)
  | sync (file : Nat)
  | rename (source target : String)
  | remove (name : String)
  | random
  | clock
  | stamp
  deriving DecidableEq

/-- What each system call answers. -/
abbrev Reply : Op → Type
  | .present _ => Bool
  | .read _ => Except OsError Bytes
  | .size _ => Except OsError Nat
  | .age _ => Option Nat
  | .openTruncated _ _ | .openAppend _ _ => Except OsError Nat
  | .random => Except OsError Block
  | .clock => F64
  | .stamp => String
  | .createDir | .write _ _ | .append _ _ | .sync _ | .rename _ _ | .remove _ =>
      Except OsError Unit

/-- A directory of files without hard links. -/
structure Directory where
  names : String → Option Nat
  contents : Nat → Bytes
  fresh : Nat
  below : ∀ name inode, names name = some inode → inode < fresh
  single : ∀ first second inode,
    names first = some inode → names second = some inode → first = second

namespace Directory

/-- The bytes under a name. -/
def file (directory : Directory) (name : String) : Option Bytes :=
  (directory.names name).map directory.contents

/-- Replace the bytes of an inode. -/
def setContents (directory : Directory) (inode : Nat) (bytes : Bytes) :
    Directory where
  names := directory.names
  contents := Function.update directory.contents inode bytes
  fresh := directory.fresh
  below := directory.below
  single := directory.single

/-- Point a name to a new empty inode. -/
def create (directory : Directory) (name : String) : Directory where
  names := Function.update directory.names name (some directory.fresh)
  contents := Function.update directory.contents directory.fresh []
  fresh := directory.fresh + 1
  below := by
    intro other inode pointed
    by_cases same : other = name
    · subst other
      simp only [Function.update_self, Option.some.injEq] at pointed
      omega
    · rw [Function.update_of_ne same] at pointed
      exact Nat.lt_succ_of_lt (directory.below other inode pointed)
  single := by
    intro first second inode pointedFirst pointedSecond
    by_cases atFirst : first = name <;> by_cases atSecond : second = name
    · rw [atFirst, atSecond]
    · subst first
      rw [Function.update_self] at pointedFirst
      rw [Function.update_of_ne atSecond] at pointedSecond
      have older := directory.below second inode pointedSecond
      simp only [Option.some.injEq] at pointedFirst
      omega
    · subst second
      rw [Function.update_self] at pointedSecond
      rw [Function.update_of_ne atFirst] at pointedFirst
      have older := directory.below first inode pointedFirst
      simp only [Option.some.injEq] at pointedSecond
      omega
    · rw [Function.update_of_ne atFirst] at pointedFirst
      rw [Function.update_of_ne atSecond] at pointedSecond
      exact directory.single first second inode pointedFirst pointedSecond

/-- Take a name away. -/
def unlink (directory : Directory) (name : String) : Directory where
  names := Function.update directory.names name none
  contents := directory.contents
  fresh := directory.fresh
  below := by
    intro other inode pointed
    by_cases same : other = name
    · subst other
      simp at pointed
    · rw [Function.update_of_ne same] at pointed
      exact directory.below other inode pointed
  single := by
    intro first second inode pointedFirst pointedSecond
    by_cases atFirst : first = name
    · subst first
      simp at pointedFirst
    by_cases atSecond : second = name
    · subst second
      simp at pointedSecond
    rw [Function.update_of_ne atFirst] at pointedFirst
    rw [Function.update_of_ne atSecond] at pointedSecond
    exact directory.single first second inode pointedFirst pointedSecond

/-- Give the inode of `source` the name `target` instead. -/
def move (directory : Directory) (source target : String) : Directory where
  names := fun name =>
    if name = target then directory.names source
    else if name = source then none
    else directory.names name
  contents := directory.contents
  fresh := directory.fresh
  below := by
    intro name inode pointed
    split at pointed
    · exact directory.below source inode pointed
    · split at pointed
      · cases pointed
      · exact directory.below name inode pointed
  single := by
    intro first second inode pointedFirst pointedSecond
    split at pointedFirst <;> split at pointedSecond
    · rename_i atFirst atSecond
      rw [atFirst, atSecond]
    · split at pointedSecond
      · cases pointedSecond
      · rename_i notSource
        exact absurd
          (directory.single second source inode pointedSecond pointedFirst)
          notSource
    · split at pointedFirst
      · cases pointedFirst
      · rename_i notSource
        exact absurd
          (directory.single first source inode pointedFirst pointedSecond)
          notSource
    · split at pointedFirst
      · cases pointedFirst
      · split at pointedSecond
        · cases pointedSecond
        · exact directory.single first second inode pointedFirst pointedSecond

/-- Writing from the start of a file keeps what lies beyond the written
bytes. -/
def overwrite (directory : Directory) (inode : Nat) (bytes : Bytes) :
    Directory :=
  directory.setContents inode
    (bytes ++ (directory.contents inode).drop bytes.length)

/-- Writing at the end of a file. -/
def extend (directory : Directory) (inode : Nat) (bytes : Bytes) :
    Directory :=
  directory.setContents inode (directory.contents inode ++ bytes)

theorem file_setContents {directory : Directory} {name : String} {inode : Nat}
    (pointed : directory.names name = some inode) (bytes : Bytes)
    (other : String) :
    (directory.setContents inode bytes).file other =
      if other = name then some bytes else directory.file other := by
  by_cases same : other = name
  · subst other
    simp [file, setContents, pointed]
  · rw [if_neg same]
    cases found : directory.names other with
    | none => simp [file, setContents, found]
    | some held =>
        have differ : held ≠ inode := by
          rintro rfl
          exact same (directory.single other name held found pointed)
        simp [file, setContents, found, Function.update_of_ne differ]

theorem file_create (directory : Directory) (name other : String) :
    (directory.create name).file other =
      if other = name then some [] else directory.file other := by
  by_cases same : other = name
  · subst other
    simp [file, create]
  · rw [if_neg same]
    cases found : directory.names other with
    | none => simp [file, create, Function.update_of_ne same, found]
    | some held =>
        have older := directory.below other held found
        have differ : held ≠ directory.fresh := by omega
        simp [file, create, Function.update_of_ne same, found,
          Function.update_of_ne differ]

theorem file_unlink (directory : Directory) (name other : String) :
    (directory.unlink name).file other =
      if other = name then none else directory.file other := by
  by_cases same : other = name
  · subst other
    simp [file, unlink]
  · simp [file, unlink, same]

theorem file_move (directory : Directory) (source target other : String) :
    (directory.move source target).file other =
      if other = target then directory.file source
      else if other = source then none
      else directory.file other := by
  simp only [file, move]
  split
  · rfl
  · split <;> rfl

/-- A directory without files. -/
def empty : Directory where
  names := fun _ => none
  contents := fun _ => []
  fresh := 0
  below := by simp
  single := by simp

/-- A new file with its bytes. -/
def put (directory : Directory) (name : String) (bytes : Bytes) : Directory :=
  (directory.create name).setContents directory.fresh bytes

theorem file_put (directory : Directory) (name : String) (bytes : Bytes)
    (other : String) :
    (directory.put name bytes).file other =
      if other = name then some bytes else directory.file other := by
  have pointed : (directory.create name).names name = some directory.fresh :=
    Function.update_self ..
  rw [put, file_setContents pointed, file_create]
  split <;> rfl

end Directory

/-- A directory together with the host's chance and time. -/
structure Host where
  directory : Directory
  draws : Nat → Block
  readings : Nat → F64
  ages : Nat → Nat
  stamps : Nat → String
  used : Nat

namespace Host

/-- The bytes under a name. -/
def file (host : Host) (name : String) : Option Bytes :=
  host.directory.file name

/-- The host with one more value handed out. -/
def spend (host : Host) : Host :=
  { host with used := host.used + 1 }

/-- The host with a changed directory. -/
def withDirectory (host : Host) (directory : Directory) : Host :=
  { host with directory := directory }

@[simp]
theorem file_spend (host : Host) (name : String) :
    host.spend.file name = host.file name :=
  rfl

@[simp]
theorem file_withDirectory (host : Host) (directory : Directory)
    (name : String) :
    (host.withDirectory directory).file name = directory.file name :=
  rfl

@[simp]
theorem used_withDirectory (host : Host) (directory : Directory) :
    (host.withDirectory directory).used = host.used :=
  rfl

@[simp]
theorem draws_withDirectory (host : Host) (directory : Directory) :
    (host.withDirectory directory).draws = host.draws :=
  rfl

@[simp]
theorem draws_spend (host : Host) : host.spend.draws = host.draws :=
  rfl

end Host

/-- Serve one system call; every call that can succeed does. -/
def serve : (op : Op) → Host → Reply op × Host
  | .createDir, host => (.ok (), host)
  | .present name, host => ((host.directory.names name).isSome, host)
  | .read name, host =>
      (match host.file name with
        | some bytes => .ok bytes
        | none => .error .notFound, host)
  | .size name, host =>
      (match host.file name with
        | some bytes => .ok bytes.length
        | none => .error .notFound, host)
  | .age name, host =>
      (if (host.directory.names name).isSome then some (host.ages host.used)
        else none, host.spend)
  | .openTruncated name _, host =>
      match host.directory.names name with
      | some inode =>
          (.ok inode, host.withDirectory (host.directory.setContents inode []))
      | none =>
          (.ok host.directory.fresh,
            host.withDirectory (host.directory.create name))
  | .openAppend name _, host =>
      match host.directory.names name with
      | some inode => (.ok inode, host)
      | none =>
          (.ok host.directory.fresh,
            host.withDirectory (host.directory.create name))
  | .write inode bytes, host =>
      (.ok (), host.withDirectory (host.directory.overwrite inode bytes))
  | .append inode bytes, host =>
      (.ok (), host.withDirectory (host.directory.extend inode bytes))
  | .sync _, host => (.ok (), host)
  | .rename source target, host =>
      match host.directory.names source with
      | some _ =>
          (.ok (), host.withDirectory (host.directory.move source target))
      | none => (.error .notFound, host)
  | .remove name, host =>
      match host.directory.names name with
      | some _ => (.ok (), host.withDirectory (host.directory.unlink name))
      | none => (.error .notFound, host)
  | .random, host => (.ok (host.draws host.used), host.spend)
  | .clock, host => (host.readings host.used, host.spend)
  | .stamp, host => (host.stamps host.used, host.spend)

/-- A program of system calls. -/
abbrev FileProgram (α : Type) := Program Op Reply α

namespace Os

abbrev createDir : FileProgram (Except OsError Unit) :=
  Program.perform Op.createDir

abbrev present (name : String) : FileProgram Bool :=
  Program.perform (Op.present name)

abbrev read (name : String) : FileProgram (Except OsError Bytes) :=
  Program.perform (Op.read name)

abbrev size (name : String) : FileProgram (Except OsError Nat) :=
  Program.perform (Op.size name)

abbrev age (name : String) : FileProgram (Option Nat) :=
  Program.perform (Op.age name)

abbrev openTruncated (name : String) (mode : Nat) :
    FileProgram (Except OsError Nat) :=
  Program.perform (Op.openTruncated name mode)

abbrev openAppend (name : String) (mode : Nat) :
    FileProgram (Except OsError Nat) :=
  Program.perform (Op.openAppend name mode)

abbrev write (file : Nat) (bytes : Bytes) :
    FileProgram (Except OsError Unit) :=
  Program.perform (Op.write file bytes)

abbrev append (file : Nat) (bytes : Bytes) :
    FileProgram (Except OsError Unit) :=
  Program.perform (Op.append file bytes)

abbrev sync (file : Nat) : FileProgram (Except OsError Unit) :=
  Program.perform (Op.sync file)

abbrev rename (source target : String) :
    FileProgram (Except OsError Unit) :=
  Program.perform (Op.rename source target)

abbrev remove (name : String) : FileProgram (Except OsError Unit) :=
  Program.perform (Op.remove name)

abbrev random : FileProgram (Except OsError Block) :=
  Program.perform Op.random

abbrev clock : FileProgram F64 :=
  Program.perform Op.clock

abbrev stamp : FileProgram String :=
  Program.perform Op.stamp

end Os

/-- The calls that leave the directory alone. -/
def Op.Reading : Op → Prop
  | .createDir | .present _ | .read _ | .size _ | .age _ | .sync _ | .random
  | .clock | .stamp => True
  | _ => False

/-- Two hosts differ in the named files at most, and the later one has handed
out no fewer values of the same streams. -/
structure AgreeOff (names : List String) (before after : Host) : Prop where
  files : ∀ name, name ∉ names → after.file name = before.file name
  draws : after.draws = before.draws
  used : before.used ≤ after.used

theorem AgreeOff.refl (names : List String) (host : Host) :
    AgreeOff names host host :=
  ⟨fun _ _ => rfl, rfl, Nat.le_refl _⟩

theorem AgreeOff.trans {names : List String} {first second third : Host}
    (early : AgreeOff names first second)
    (late : AgreeOff names second third) :
    AgreeOff names first third :=
  ⟨fun name off => (late.files name off).trans (early.files name off),
    late.draws.trans early.draws, early.used.trans late.used⟩

theorem AgreeOff.mono {names wider : List String} {before after : Host}
    (agree : AgreeOff names before after) (included : names ⊆ wider) :
    AgreeOff wider before after :=
  ⟨fun name off => agree.files name fun member => off (included member),
    agree.draws, agree.used⟩

theorem agreeOff_serve_reading {op : Op} (reading : op.Reading)
    (host : Host) : AgreeOff [] host (serve op host).2 := by
  cases op <;> first
    | exact reading.elim
    | exact AgreeOff.refl [] host
    | exact ⟨fun _ _ => rfl, rfl, Nat.le_succ _⟩

theorem file_overwrite {host : Host} {name : String} {inode : Nat}
    (pointed : host.directory.names name = some inode) (bytes : Bytes)
    (other : String) :
    (host.directory.overwrite inode bytes).file other =
      if other = name then
        (host.file name).map fun before => bytes ++ before.drop bytes.length
      else host.file other := by
  rw [Directory.overwrite, Directory.file_setContents pointed]
  simp [Host.file, Directory.file, pointed]

theorem file_extend {host : Host} {name : String} {inode : Nat}
    (pointed : host.directory.names name = some inode) (bytes : Bytes)
    (other : String) :
    (host.directory.extend inode bytes).file other =
      if other = name then (host.file name).map (· ++ bytes)
      else host.file other := by
  rw [Directory.extend, Directory.file_setContents pointed]
  simp [Host.file, Directory.file, pointed]

/-- Of the other names not even the inode differs. -/
structure KeepsOff (names : List String) (before after : Host) : Prop
    extends AgreeOff names before after where
  pointers : ∀ name, name ∉ names →
    after.directory.names name = before.directory.names name

theorem KeepsOff.refl (names : List String) (host : Host) :
    KeepsOff names host host :=
  ⟨AgreeOff.refl names host, fun _ _ => rfl⟩

theorem KeepsOff.trans {names : List String} {first second third : Host}
    (early : KeepsOff names first second)
    (late : KeepsOff names second third) :
    KeepsOff names first third :=
  ⟨early.toAgreeOff.trans late.toAgreeOff, fun name off =>
    (late.pointers name off).trans (early.pointers name off)⟩

theorem KeepsOff.mono {names wider : List String} {before after : Host}
    (keeps : KeepsOff names before after) (included : names ⊆ wider) :
    KeepsOff wider before after :=
  ⟨keeps.toAgreeOff.mono included, fun name off =>
    keeps.pointers name fun member => off (included member)⟩

theorem keepsOff_serve_reading {op : Op} (reading : op.Reading)
    (host : Host) : KeepsOff [] host (serve op host).2 := by
  refine ⟨agreeOff_serve_reading reading host, fun name _ => ?_⟩
  cases op <;> first
    | exact reading.elim
    | rfl

theorem keepsOff_create (host : Host) (name : String) :
    KeepsOff [name] host (host.withDirectory (host.directory.create name)) := by
  refine ⟨⟨fun other off => ?_, rfl, le_rfl⟩, fun other off => ?_⟩
  · exact (Directory.file_create host.directory name other).trans
      (if_neg (by simpa using off))
  · exact Function.update_of_ne (by simpa using off) ..

/-- Opening an emptied file changes that file only and points to it. -/
theorem openTruncated_pointed (name : String) (mode : Nat) (host : Host) :
    ∃ inode, (serve (.openTruncated name mode) host).1 = .ok inode ∧
      (serve (.openTruncated name mode) host).2.directory.names name =
        some inode ∧
      (serve (.openTruncated name mode) host).2.file name = some [] ∧
      KeepsOff [name] host (serve (.openTruncated name mode) host).2 := by
  cases pointed : host.directory.names name with
  | some inode =>
      simp only [serve, pointed]
      refine ⟨inode, rfl, pointed, ?_, ⟨fun other off => ?_, rfl, le_rfl⟩,
        fun _ _ => rfl⟩
      · exact (Directory.file_setContents pointed [] name).trans (if_pos rfl)
      · exact (Directory.file_setContents pointed [] other).trans
          (if_neg (by simpa using off))
  | none =>
      simp only [serve, pointed]
      exact ⟨host.directory.fresh, rfl, Function.update_self ..,
        (Directory.file_create host.directory name name).trans (if_pos rfl),
        keepsOff_create host name⟩

/-- Opening a file for its end changes that file at most and points to it. -/
theorem openAppend_pointed (name : String) (mode : Nat) (host : Host) :
    ∃ inode, (serve (.openAppend name mode) host).1 = .ok inode ∧
      (serve (.openAppend name mode) host).2.directory.names name =
        some inode ∧
      KeepsOff [name] host (serve (.openAppend name mode) host).2 := by
  cases pointed : host.directory.names name with
  | some inode =>
      simp only [serve, pointed]
      exact ⟨inode, rfl, rfl, KeepsOff.refl _ host⟩
  | none =>
      simp only [serve, pointed]
      exact ⟨host.directory.fresh, rfl, Function.update_self ..,
        keepsOff_create host name⟩

theorem keepsOff_write {host : Host} {name : String} {inode : Nat}
    (pointed : host.directory.names name = some inode) (bytes : Bytes) :
    KeepsOff [name] host (serve (.write inode bytes) host).2 :=
  ⟨⟨fun other off => (file_overwrite pointed bytes other).trans
    (if_neg (by simpa using off)), rfl, le_rfl⟩, fun _ _ => rfl⟩

theorem keepsOff_append {host : Host} {name : String} {inode : Nat}
    (pointed : host.directory.names name = some inode) (bytes : Bytes) :
    KeepsOff [name] host (serve (.append inode bytes) host).2 :=
  ⟨⟨fun other off => (file_extend pointed bytes other).trans
    (if_neg (by simpa using off)), rfl, le_rfl⟩, fun _ _ => rfl⟩

/-- A file that is there takes the place of another. -/
theorem rename_present {source : String} {host : Host} {inode : Nat}
    (present : host.directory.names source = some inode) (target : String) :
    (serve (.rename source target) host).1 = .ok () ∧
      (serve (.rename source target) host).2.file target =
        host.file source ∧
      KeepsOff [source, target] host
        (serve (.rename source target) host).2 := by
  simp only [serve, present]
  refine ⟨trivial, ?_, ⟨fun other off => ?_, rfl, le_rfl⟩, fun other off => ?_⟩
  · exact (Directory.file_move host.directory source target target).trans
      (if_pos rfl)
  all_goals
    simp only [List.mem_cons, List.not_mem_nil, or_false, not_or] at off
  · rw [Host.file_withDirectory, Directory.file_move, if_neg off.2,
      if_neg off.1]
    rfl
  · exact (if_neg off.2).trans (if_neg off.1)

theorem rename_unnamed {source target : String} (differ : source ≠ target)
    (host : Host) :
    (serve (.rename source target) host).2.directory.names source = none := by
  cases present : host.directory.names source with
  | some inode =>
      simp only [serve, present]
      exact (if_neg differ).trans (if_pos rfl)
  | none => simp only [serve, present]

/-- Whether a file was there or not, it is gone. -/
theorem remove_gone (name : String) (host : Host) :
    ((serve (.remove name) host).1 = .ok () ∨
      (serve (.remove name) host).1 = .error .notFound) ∧
      (serve (.remove name) host).2.file name = none ∧
      KeepsOff [name] host (serve (.remove name) host).2 := by
  cases pointed : host.directory.names name with
  | some inode =>
      simp only [serve, pointed]
      refine ⟨.inl trivial, ?_, ⟨fun other off => ?_, rfl, le_rfl⟩,
        fun other off => ?_⟩
      · exact (Directory.file_unlink host.directory name name).trans
          (if_pos rfl)
      · exact (Directory.file_unlink host.directory name other).trans
          (if_neg (by simpa using off))
      · exact Function.update_of_ne (by simpa using off) ..
  | none =>
      simp only [serve, pointed]
      exact ⟨.inr trivial, by simp [Host.file, Directory.file, pointed],
        KeepsOff.refl _ host⟩

/-- Two hosts hand out the same values. -/
structure SameStreams (before after : Host) : Prop where
  draws : after.draws = before.draws
  used : after.used = before.used

section Rules

variable {always : Host → Prop} {host : Host}

theorem guarded_openTruncated {name : String} {mode : Nat}
    {post : Except OsError Nat → Host → Prop} (before : always host)
    (opened : ∀ inode after, after.directory.names name = some inode →
      (∀ other, after.file other =
        if other = name then some [] else host.file other) →
      SameStreams host after → always after ∧ post (.ok inode) after) :
    Program.Guarded serve always post (Os.openTruncated name mode) host := by
  cases pointed : host.directory.names name with
  | some inode =>
      have step : serve (.openTruncated name mode) host =
          (.ok inode,
            host.withDirectory (host.directory.setContents inode [])) := by
        simp only [serve, pointed]
      exact Program.guarded_perform_of_eq step before <| opened inode
        (host.withDirectory (host.directory.setContents inode [])) pointed
        (fun other => Directory.file_setContents pointed [] other) ⟨rfl, rfl⟩
  | none =>
      have step : serve (.openTruncated name mode) host =
          (.ok host.directory.fresh,
            host.withDirectory (host.directory.create name)) := by
        simp only [serve, pointed]
      exact Program.guarded_perform_of_eq step before <|
        opened host.directory.fresh
        (host.withDirectory (host.directory.create name))
        (Function.update_self ..)
        (fun other => Directory.file_create host.directory name other)
        ⟨rfl, rfl⟩

theorem guarded_openAppend {name : String} {mode : Nat}
    {post : Except OsError Nat → Host → Prop} (before : always host)
    (opened : ∀ inode after, after.directory.names name = some inode →
      (∀ other, after.file other =
        if other = name then some ((host.file name).getD [])
        else host.file other) →
      SameStreams host after → always after ∧ post (.ok inode) after) :
    Program.Guarded serve always post (Os.openAppend name mode) host := by
  cases pointed : host.directory.names name with
  | some inode =>
      have step : serve (.openAppend name mode) host = (.ok inode, host) := by
        simp only [serve, pointed]
      exact Program.guarded_perform_of_eq step before <|
        opened inode host pointed
        (by
          intro other
          split
          · rename_i same
            simp [same, Host.file, Directory.file, pointed]
          · rfl)
        ⟨rfl, rfl⟩
  | none =>
      have step : serve (.openAppend name mode) host =
          (.ok host.directory.fresh,
            host.withDirectory (host.directory.create name)) := by
        simp only [serve, pointed]
      have empty : (host.file name).getD [] = [] := by
        simp [Host.file, Directory.file, pointed]
      exact Program.guarded_perform_of_eq step before <|
        opened host.directory.fresh
        (host.withDirectory (host.directory.create name))
        (Function.update_self ..)
        (by
          intro other
          rw [empty]
          exact Directory.file_create host.directory name other)
        ⟨rfl, rfl⟩

theorem guarded_write {name : String} {inode : Nat} {bytes : Bytes}
    {post : Except OsError Unit → Host → Prop}
    (pointed : host.directory.names name = some inode) (before : always host)
    (written : ∀ after, after.directory.names = host.directory.names →
      (∀ other, after.file other =
        if other = name then
          (host.file name).map fun old => bytes ++ old.drop bytes.length
        else host.file other) →
      SameStreams host after → always after ∧ post (.ok ()) after) :
    Program.Guarded serve always post (Os.write inode bytes) host := by
  have step : serve (.write inode bytes) host =
      (.ok (), host.withDirectory (host.directory.overwrite inode bytes)) :=
    rfl
  exact Program.guarded_perform_of_eq step before <| written
    (host.withDirectory (host.directory.overwrite inode bytes)) rfl
    (file_overwrite pointed bytes) ⟨rfl, rfl⟩

theorem guarded_append {name : String} {inode : Nat} {bytes : Bytes}
    {post : Except OsError Unit → Host → Prop}
    (pointed : host.directory.names name = some inode) (before : always host)
    (written : ∀ after, after.directory.names = host.directory.names →
      (∀ other, after.file other =
        if other = name then (host.file name).map (· ++ bytes)
        else host.file other) →
      SameStreams host after → always after ∧ post (.ok ()) after) :
    Program.Guarded serve always post (Os.append inode bytes) host := by
  have step : serve (.append inode bytes) host =
      (.ok (), host.withDirectory (host.directory.extend inode bytes)) :=
    rfl
  exact Program.guarded_perform_of_eq step before <| written
    (host.withDirectory (host.directory.extend inode bytes)) rfl
    (file_extend pointed bytes) ⟨rfl, rfl⟩

theorem guarded_sync {inode : Nat}
    {post : Except OsError Unit → Host → Prop} (before : always host)
    (synced : post (.ok ()) host) :
    Program.Guarded serve always post (Os.sync inode) host := by
  have step : serve (.sync inode) host = (.ok (), host) := rfl
  exact Program.guarded_perform_of_eq step before ⟨before, synced⟩

theorem guarded_rename {source target : String}
    {post : Except OsError Unit → Host → Prop}
    (present : (host.file source).isSome) (before : always host)
    (moved : ∀ after,
      (∀ other, after.file other =
        if other = target then host.file source
        else if other = source then none
        else host.file other) →
      SameStreams host after → always after ∧ post (.ok ()) after) :
    Program.Guarded serve always post (Os.rename source target) host := by
  cases pointed : host.directory.names source with
  | some inode =>
      have step : serve (.rename source target) host =
          (.ok (), host.withDirectory
            (host.directory.move source target)) := by
        simp only [serve, pointed]
      exact Program.guarded_perform_of_eq step before <| moved
        (host.withDirectory (host.directory.move source target))
        (Directory.file_move host.directory source target) ⟨rfl, rfl⟩
  | none => simp [Host.file, Directory.file, pointed] at present

/-- Removing a file; it may be absent. -/
theorem guarded_remove {name : String}
    {post : Except OsError Unit → Host → Prop} (before : always host)
    (removed : ∀ result after,
      (result = .ok () ∨ result = .error .notFound) →
      (∀ other, after.file other =
        if other = name then none else host.file other) →
      SameStreams host after → always after ∧ post result after) :
    Program.Guarded serve always post (Os.remove name) host := by
  cases pointed : host.directory.names name with
  | some inode =>
      have step : serve (.remove name) host =
          (.ok (), host.withDirectory (host.directory.unlink name)) := by
        simp only [serve, pointed]
      exact Program.guarded_perform_of_eq step before <| removed (.ok ())
        (host.withDirectory (host.directory.unlink name)) (Or.inl rfl)
        (Directory.file_unlink host.directory name) ⟨rfl, rfl⟩
  | none =>
      have step : serve (.remove name) host =
          (.error .notFound, host) := by
        simp only [serve, pointed]
      exact Program.guarded_perform_of_eq step before <|
        removed (.error .notFound) host (Or.inr rfl)
        (by
          intro other
          split
          · rename_i same
            simp [same, Host.file, Directory.file, pointed]
          · rfl)
        ⟨rfl, rfl⟩

/-- Reading leaves the files alone. -/
theorem guarded_reading {op : Op} (reading : op.Reading)
    {post : Reply op → Host → Prop} (before : always host)
    (answered : ∀ after, AgreeOff [] host after →
      always after ∧ post (serve op host).1 after) :
    Program.Guarded serve always post (Program.perform op) host := by
  have after := answered (serve op host).2 (agreeOff_serve_reading reading host)
  exact Program.guarded_perform before after.1 after.2

end Rules

end FileDirectory
