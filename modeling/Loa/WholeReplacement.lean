import Loa.FileDirectory
import Loa.TransitionRun

/-!
# A file that is replaced whole

A writer puts a text into a temporary file, piece by piece, and renames it over
the file when all of it is there; it may fail or be killed anywhere, and begin
again.  Readers open the file at any time and read it piece by piece.  The file
is never written in place, so a reader ends with one whole text: the one that was
newest when it opened the file.
-/

namespace WholeReplacement

open FileDirectory (Directory)
open TransitionRun (Run)

/-- The file, the temporary file, and the text of an item. -/
structure Exchange (Item : Type) where
  file : String
  temporary : String
  differ : temporary ≠ file
  text : Item → Bytes

/-- A writer at work: what it writes, where, and what is left of the text. -/
structure Writer (Item : Type) where
  item : Item
  inode : Nat
  left : Bytes

/-- A reader: the file that it opened, behind how many publications, what it has
read, and whether it found the end. -/
structure Reader where
  inode : Nat
  opened : Nat
  got : Bytes := []
  ended : Bool := false
  deriving DecidableEq

/-- The directory, one writer, the readers so far, and the items that the writer
began and that it published. -/
structure Desk (Item : Type) where
  directory : Directory
  writer : Option (Writer Item) := none
  readers : List Reader := []
  begun : List Item := []
  published : List Item := []

/-- A step of the writer, or of one of the readers.  The writer quits where a
call fails or it is killed. -/
inductive Move (Item : Type)
  | begin (item : Item)
  | put (count : Nat)
  | publish
  | quit
  | look
  | take (reader count : Nat)

namespace Exchange

variable {Item : Type} (exchange : Exchange Item)

/-- Open the temporary file, empty it if it is there, and begin. -/
def start (desk : Desk Item) (item : Item) : Option (Desk Item) :=
  match desk.writer with
  | some _ => none
  | none =>
      let (inode, directory) :=
        match desk.directory.names exchange.temporary with
        | some inode => (inode, desk.directory.setContents inode [])
        | none =>
            (desk.directory.fresh, desk.directory.create exchange.temporary)
      some
        { desk with
          directory
          writer := some ⟨item, inode, exchange.text item⟩
          begun := desk.begun ++ [item] }

/-- Write some of what is left. -/
def put (desk : Desk Item) (count : Nat) : Option (Desk Item) :=
  desk.writer.map fun writer =>
    { desk with
      directory := desk.directory.extend writer.inode (writer.left.take count)
      writer := some { writer with left := writer.left.drop count } }

/-- Rename the temporary file, once all of the text is in it. -/
def publish (desk : Desk Item) : Option (Desk Item) :=
  match desk.writer with
  | some ⟨item, _, []⟩ =>
      some
        { desk with
          directory := desk.directory.move exchange.temporary exchange.file
          writer := none
          published := desk.published ++ [item] }
  | _ => none

/-- Open the file, where it is there. -/
def look (desk : Desk Item) : Option (Desk Item) :=
  (desk.directory.names exchange.file).map fun inode =>
    { desk with
      readers := desk.readers ++ [⟨inode, desk.published.length, [], false⟩] }

/-- Read the next piece; an empty one is the end. -/
def take (desk : Desk Item) (place count : Nat) : Option (Desk Item) :=
  match desk.readers[place]? with
  | none => none
  | some reader =>
      if count = 0 then none
      else
        let piece :=
          ((desk.directory.contents reader.inode).drop reader.got.length).take
            count
        some
          { desk with
            readers := desk.readers.set place
              { reader with got := reader.got ++ piece, ended := piece.isEmpty } }

def step (desk : Desk Item) : Move Item → Option (Desk Item)
  | .begin item => exchange.start desk item
  | .put count => put desk count
  | .publish => exchange.publish desk
  | .quit => some { desk with writer := none }
  | .look => exchange.look desk
  | .take reader count => take desk reader count

/-- A reader has the beginning of the text that was published last when it
opened the file, and that text is still in the file that it opened. -/
structure Follows (desk : Desk Item) (reader : Reader) : Prop where
  old : reader.inode < desk.directory.fresh
  apart : desk.directory.names exchange.temporary ≠ some reader.inode
  text : ∃ item, 0 < reader.opened ∧
    desk.published[reader.opened - 1]? = some item ∧
    desk.directory.contents reader.inode = exchange.text item ∧
    reader.got <+: exchange.text item ∧
    (reader.ended = true → reader.got = exchange.text item)

/-- What a writer has written and what is left is its text, and the item is the
last one that was begun. -/
structure Writes (desk : Desk Item) (writer : Writer Item) : Prop where
  named : desk.directory.names exchange.temporary = some writer.inode
  text : desk.directory.contents writer.inode ++ writer.left =
    exchange.text writer.item
  last : ∃ front, desk.begun = front ++ [writer.item] ∧
    desk.published.Sublist front

/-- The file has the text that was published last. -/
structure Sound (desk : Desk Item) : Prop where
  file : desk.directory.file exchange.file =
    desk.published.getLast?.map exchange.text
  writer : ∀ writer ∈ desk.writer, exchange.Writes desk writer
  readers : ∀ reader ∈ desk.readers, exchange.Follows desk reader
  order : desk.published.Sublist desk.begun

variable {exchange}
variable {desk after : Desk Item}

/-- A desk at which nothing has happened, and no file is there yet. -/
theorem sound_start {directory : Directory}
    (absent : directory.file exchange.file = none) :
    exchange.Sound ({ directory } : Desk Item) where
  file := absent
  writer := by simp
  readers := by simp
  order := .refl _

/-- A step that leaves a reader's file alone, and publishes no less. -/
theorem Follows.later {reader : Reader} (follows : exchange.Follows desk reader)
    (fresh : desk.directory.fresh ≤ after.directory.fresh)
    (apart : after.directory.names exchange.temporary ≠ some reader.inode)
    (same : after.directory.contents reader.inode =
      desk.directory.contents reader.inode)
    (grown : desk.published <+: after.published) :
    exchange.Follows after reader := by
  obtain ⟨item, some, there, text, got, ended⟩ := follows.text
  refine ⟨follows.old.trans_le fresh, apart, item, some, ?_, same.trans text, got,
    ended⟩
  obtain ⟨more, whole⟩ := grown
  obtain ⟨inside, -⟩ := List.getElem?_eq_some_iff.mp there
  rw [← whole, List.getElem?_append_left inside, there]

theorem Sound.start (sound : exchange.Sound desk) {item : Item}
    (started : exchange.start desk item = some after) : exchange.Sound after := by
  unfold Exchange.start at started
  split at started
  · cases started
  · have order : desk.published.Sublist (desk.begun ++ [item]) :=
      sound.order.trans (List.sublist_append_left _ _)
    cases pointed : desk.directory.names exchange.temporary with
    | some inode =>
        rw [pointed] at started
        cases started
        refine ⟨?_, ?_, fun reader member => ?_, order⟩
        · have unchanged := Directory.file_setContents pointed [] exchange.file
          rw [if_neg exchange.differ.symm] at unchanged
          exact unchanged.trans sound.file
        · rintro _ ⟨⟩
          exact ⟨pointed, by simp [Directory.setContents],
            desk.begun, rfl, sound.order⟩
        · have follows := sound.readers reader member
          have differ : reader.inode ≠ inode := fun same =>
            follows.apart (same ▸ pointed)
          exact follows.later le_rfl follows.apart
            (Function.update_of_ne differ _ _) (List.prefix_refl _)
    | none =>
        rw [pointed] at started
        cases started
        refine ⟨?_, ?_, fun reader member => ?_, order⟩
        · have unchanged :=
            desk.directory.file_create exchange.temporary exchange.file
          rw [if_neg exchange.differ.symm] at unchanged
          exact unchanged.trans sound.file
        · rintro _ ⟨⟩
          exact ⟨Function.update_self .., by simp [Directory.create],
            desk.begun, rfl, sound.order⟩
        · have follows := sound.readers reader member
          have differ : reader.inode ≠ desk.directory.fresh :=
            Nat.ne_of_lt follows.old
          refine follows.later (Nat.le_succ _) ?_
            (Function.update_of_ne differ _ _) (List.prefix_refl _)
          intro same
          have named : desk.directory.fresh = reader.inode := by
            simpa [Directory.create] using same
          exact differ named.symm

theorem Sound.put (sound : exchange.Sound desk) {count : Nat}
    (written : Exchange.put desk count = some after) : exchange.Sound after := by
  obtain ⟨writer, working, rfl⟩ := Option.map_eq_some_iff.mp written
  have writes := sound.writer writer working
  refine ⟨?_, ?_, fun reader member => ?_, sound.order⟩
  · have unchanged := Directory.file_setContents writes.named
      (desk.directory.contents writer.inode ++ writer.left.take count)
      exchange.file
    rw [if_neg exchange.differ.symm] at unchanged
    exact unchanged.trans sound.file
  · rintro _ ⟨⟩
    refine ⟨writes.named, ?_, writes.last⟩
    simp only [Directory.extend, Directory.setContents, Function.update_self,
      List.append_assoc, List.take_append_drop]
    exact writes.text
  · have follows := sound.readers reader member
    have differ : reader.inode ≠ writer.inode := fun same =>
      follows.apart (same ▸ writes.named)
    exact follows.later le_rfl follows.apart (Function.update_of_ne differ _ _)
      (List.prefix_refl _)

theorem Sound.publish (sound : exchange.Sound desk)
    (renamed : exchange.publish desk = some after) : exchange.Sound after := by
  unfold Exchange.publish at renamed
  split at renamed
  case h_1 item inode working =>
    cases renamed
    have writes := sound.writer ⟨item, inode, []⟩ working
    have whole : desk.directory.contents inode = exchange.text item := by
      rw [← writes.text, List.append_nil]
    obtain ⟨front, begun, earlier⟩ := writes.last
    refine ⟨?_, by simp, fun reader member => ?_, ?_⟩
    · have moved := desk.directory.file_move exchange.temporary exchange.file
        exchange.file
      have there : desk.directory.file exchange.temporary =
          some (exchange.text item) := by
        rw [Directory.file, writes.named, Option.map_some, whole]
      rw [if_pos rfl, there] at moved
      simpa using moved
    · have follows := sound.readers reader member
      refine follows.later le_rfl ?_ rfl (List.prefix_append _ _)
      simp [Directory.move, exchange.differ]
    · rw [begun]
      exact earlier.append (List.Sublist.refl _)
  all_goals cases renamed

theorem Sound.look (sound : exchange.Sound desk)
    (opened : exchange.look desk = some after) : exchange.Sound after := by
  obtain ⟨inode, pointed, rfl⟩ := Option.map_eq_some_iff.mp opened
  refine ⟨sound.file, fun writer working => ?_, fun reader member => ?_,
    sound.order⟩
  · obtain ⟨named, text, last⟩ := sound.writer writer working
    exact ⟨named, text, last⟩
  · obtain old | new := List.mem_append.mp member
    · have follows := sound.readers reader old
      exact follows.later le_rfl follows.apart rfl (List.prefix_refl _)
    · obtain rfl := List.mem_singleton.mp new
      have found := sound.file
      rw [Directory.file, pointed, Option.map_some] at found
      obtain ⟨item, newest, text⟩ := Option.map_eq_some_iff.mp found.symm
      have some : 0 < desk.published.length := by
        by_contra none
        have empty : desk.published = [] :=
          List.eq_nil_of_length_eq_zero (by omega)
        rw [empty] at newest
        cases newest
      refine ⟨desk.directory.below _ _ pointed, fun same => ?_, item, some, ?_,
        text.symm, List.nil_prefix, fun ended => by cases ended⟩
      · exact exchange.differ (desk.directory.single _ _ _ same pointed)
      · rw [← newest, List.getLast?_eq_getElem?]

theorem Sound.take (sound : exchange.Sound desk) {place count : Nat}
    (read : Exchange.take desk place count = some after) :
    exchange.Sound after := by
  unfold Exchange.take at read
  split at read
  · cases read
  · rename_i reader there
    split_ifs at read with nothing
    cases read
    refine ⟨sound.file, fun writer working => ?_, fun other member => ?_,
      sound.order⟩
    · obtain ⟨named, text, last⟩ := sound.writer writer working
      exact ⟨named, text, last⟩
    · obtain old | rfl := List.mem_or_eq_of_mem_set member
      · have follows := sound.readers other old
        exact follows.later le_rfl follows.apart rfl (List.prefix_refl _)
      · obtain ⟨old, apart, item, some, place, text, ⟨rest, whole⟩, -⟩ :=
          sound.readers reader (List.mem_of_getElem? there)
        have behind : (exchange.text item).drop reader.got.length = rest := by
          rw [← whole, List.drop_left]
        refine ⟨old, apart, item, some, place, text, ?_, fun ended => ?_⟩
        · dsimp only
          rw [text, behind, ← whole]
          exact List.prefix_append_right_inj reader.got |>.mpr
            (List.take_prefix _ _)
        · -- an empty piece is the end, as it was asked for
          dsimp only at ended ⊢
          rw [text, behind, List.isEmpty_iff] at ended
          have finished : rest = [] := by
            cases rest with
            | nil => rfl
            | cons first rest =>
                obtain ⟨fewer, rfl⟩ := Nat.exists_eq_succ_of_ne_zero nothing
                cases ended
          rw [text, behind, finished, List.take_nil, List.append_nil, ← whole,
            finished, List.append_nil]

theorem step_sound {move : Move Item}
    (stepped : exchange.step desk move = some after)
    (sound : exchange.Sound desk) : exchange.Sound after := by
  cases move with
  | begin item => exact sound.start stepped
  | put count => exact sound.put stepped
  | publish => exact sound.publish stepped
  | quit =>
      cases stepped
      refine ⟨sound.file, by simp, fun reader member => ?_,
        sound.order⟩
      have follows := sound.readers reader member
      exact follows.later le_rfl follows.apart rfl (List.prefix_refl _)
  | look => exact sound.look stepped
  | take reader count => exact sound.take stepped

/-- What holds wherever a run of the writer and the readers leads. -/
theorem run_sound {directory : Directory} {trace : List (Desk Item × Move Item)}
    (absent : directory.file exchange.file = none)
    (run : Run exchange.step { directory } trace desk) : exchange.Sound desk :=
  run.kept (sound_start absent) fun _ _ _ => step_sound

/-- A reader that found the end has the text that was published last when it
opened the file. -/
theorem Sound.whole (sound : exchange.Sound desk) {reader : Reader}
    (member : reader ∈ desk.readers) (ended : reader.ended = true) :
    ∃ item, 0 < reader.opened ∧
      desk.published[reader.opened - 1]? = some item ∧
      reader.got = exchange.text item := by
  obtain ⟨item, some, there, -, -, whole⟩ := (sound.readers reader member).text
  exact ⟨item, some, there, whole ended⟩

end Exchange

end WholeReplacement
