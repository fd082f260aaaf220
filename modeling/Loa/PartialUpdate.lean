import Mathlib.Logic.Function.Basic
import Mathlib.Data.List.Basic
import Mathlib.Data.List.Induction

/-!
# Partial updates of a family of registers

A partial update carries a new value for some of the registers of a family and
says nothing about the others.  Partial updates compose with the later one
winning, so a sequence of them is again one partial update.  The file
characterizes when a single update may stand for a whole sequence that ends in
it, which is what a reader that keeps only the newest of several updates relies
on.  Where every register belongs to one tag, and an update speaks only for
registers of its own tag, the newest update of each tag is enough.
-/

namespace PartialUpdate

variable {Index : Type*} {Value : Index → Type*}

/-- An update that carries values for some of the registers. -/
def Patch (Value : Index → Type*) :=
  ∀ index, Option (Value index)

namespace Patch

/-- The update that carries nothing. -/
def silent : Patch Value :=
  fun _ => none

/-- Write the carried values and leave every other register as it was. -/
def apply (patch : Patch Value) (registers : ∀ index, Value index) :
    ∀ index, Value index :=
  fun index => (patch index).getD (registers index)

/-- One update after another; the later one wins where both speak. -/
def andThen (first second : Patch Value) : Patch Value :=
  fun index => (second index).or (first index)

/-- A whole sequence of updates as one update. -/
def merged (patches : List (Patch Value)) : Patch Value :=
  patches.foldl andThen silent

theorem apply_of_some {patch : Patch Value} {index : Index}
    {value : Value index} (carried : patch index = some value)
    (registers : ∀ index, Value index) :
    patch.apply registers index = value := by
  simp [apply, carried]

theorem apply_of_none {patch : Patch Value} {index : Index}
    (uncarried : patch index = none) (registers : ∀ index, Value index) :
    patch.apply registers index = registers index := by
  simp [apply, uncarried]

theorem apply_andThen (first second : Patch Value)
    (registers : ∀ index, Value index) :
    (first.andThen second).apply registers =
      second.apply (first.apply registers) := by
  funext index
  cases carried : second index <;> simp [andThen, apply, carried]

@[simp]
theorem merged_concat (patches : List (Patch Value)) (last : Patch Value) :
    merged (patches ++ [last]) = (merged patches).andThen last := by
  simp [merged, List.foldl_append]

/-- Applying updates one at a time applies their merge. -/
theorem foldl_apply (patches : List (Patch Value))
    (registers : ∀ index, Value index) :
    patches.foldl (fun current patch => patch.apply current) registers =
      (merged patches).apply registers := by
  induction patches using List.reverseRecOn with
  | nil => rfl
  | append_singleton patches last induction =>
      rw [List.foldl_append, induction, merged_concat, apply_andThen]
      rfl

/-- Of a sequence, a register gets what the last update that speaks of it
says. -/
theorem merged_eq_getLast? (patches : List (Patch Value)) (index : Index) :
    merged patches index =
      (patches.filterMap fun patch => patch index).getLast? := by
  induction patches using List.reverseRecOn with
  | nil => rfl
  | append_singleton patches last induction =>
      rw [merged_concat, List.filterMap_append]
      cases carried : last index with
      | none => simp [andThen, carried, induction]
      | some value => simp [andThen, carried]

/-- The same update again changes nothing. -/
@[simp]
theorem apply_apply (patch : Patch Value)
    (registers : ∀ index, Value index) :
    patch.apply (patch.apply registers) = patch.apply registers := by
  funext index
  cases carried : patch index <;> simp [apply, carried]

/-- What an earlier update says beyond `last` is already so in `registers`. -/
def CoveredBy (earlier last : Patch Value)
    (registers : ∀ index, Value index) : Prop :=
  ∀ index value, earlier index = some value → last index = none →
    value = registers index

/-- The later update alone does the work of both exactly when it covers the
earlier one. -/
theorem apply_andThen_eq_apply_iff (earlier last : Patch Value)
    (registers : ∀ index, Value index) :
    (earlier.andThen last).apply registers = last.apply registers ↔
      CoveredBy earlier last registers := by
  constructor
  · intro same index value carried unsaid
    have atIndex := congrFun same index
    rw [apply_of_none unsaid] at atIndex
    rw [← atIndex]
    exact (apply_of_some (by simp [andThen, unsaid, carried]) registers).symm
  · intro covered
    funext index
    cases said : last index with
    | some value => simp [apply, andThen, said]
    | none =>
        cases carried : earlier index with
        | none => simp [apply, andThen, said, carried]
        | some value =>
            have held := covered index value carried said
            simp [apply, andThen, said, carried, held]

section Owned

variable {Tag Message : Type*} [DecidableEq Tag] (owner : Index → Tag)
  (tag : Message → Tag) (patch : Message → Patch Value)

/-- Every register belongs to one tag: no message speaks for a register of
another one. -/
def Owned (messages : List Message) : Prop :=
  ∀ message ∈ messages, ∀ index, owner index ≠ tag message →
    patch message index = none

/-- The newest message of one tag. -/
def newest (messages : List Message) (wanted : Tag) : Option Message :=
  (messages.filter fun message => tag message = wanted).getLast?

/-- A register gets what the last message of its own tag says that speaks of
it. -/
theorem merged_of_owned {messages : List Message}
    (owned : Owned owner tag patch messages) (index : Index) :
    merged (messages.map patch) index =
      ((messages.filter fun message => tag message = owner index).filterMap
        fun message => patch message index).getLast? := by
  rw [merged_eq_getLast?, List.filterMap_map, List.filterMap_filter]
  congr 1
  refine List.filterMap_congr fun message member => ?_
  by_cases own : tag message = owner index
  · simp [own]
  · simpa [own] using owned message member index (Ne.symm own)

/-- If silence of a message means that those before it were silent too, the
newest message says all there is to say. -/
theorem getLast?_filterMap_of_pairwise {α β : Type*} {said : α → Option β}
    {messages : List α}
    (lasting : messages.Pairwise fun earlier later =>
      said later = none → said earlier = none) :
    (messages.filterMap said).getLast? = messages.getLast?.bind said := by
  cases messages using List.reverseRecOn with
  | nil => rfl
  | append_singleton messages last =>
      rw [List.filterMap_append]
      cases spoken : said last with
      | some value => simp [spoken]
      | none =>
          have silent : messages.filterMap said = [] := by
            rw [List.filterMap_eq_nil_iff]
            intro message member
            exact (List.pairwise_append.mp lasting).2.2 message member last
              (List.mem_singleton_self last) spoken
          simp [spoken, silent]

theorem tag_of_newest {messages : List Message} {wanted : Tag}
    {message : Message} (isNewest : newest tag messages wanted = some message) :
    message ∈ messages ∧ tag message = wanted := by
  have member := List.mem_of_getLast? isNewest
  simpa using member

/-- Among the newest messages of distinct tags, one at most has a given tag. -/
theorem filter_newest (messages : List Message) {tags : List Tag}
    (distinct : tags.Nodup) {wanted : Tag} (listed : wanted ∈ tags) :
    ((tags.filterMap (newest tag messages)).filter fun message =>
      tag message = wanted) = (newest tag messages wanted).toList := by
  have others : ∀ tags : List Tag, wanted ∉ tags →
      ((tags.filterMap (newest tag messages)).filter fun message =>
        tag message = wanted) = [] := by
    intro tags unlisted
    rw [List.filter_eq_nil_iff]
    intro message member
    obtain ⟨other, otherListed, isNewest⟩ := List.mem_filterMap.mp member
    have same := (tag_of_newest tag isNewest).2
    rintro wantedTag
    rw [decide_eq_true_eq] at wantedTag
    exact unlisted (wantedTag ▸ same ▸ otherListed)
  induction tags with
  | nil => cases listed
  | cons first rest induction =>
      obtain ⟨fresh, distinct⟩ := List.nodup_cons.mp distinct
      by_cases here : wanted = first
      · subst here
        cases found : newest tag messages wanted with
        | none =>
            rw [List.filterMap_cons_none found]
            exact others rest fresh
        | some message =>
            rw [List.filterMap_cons_some found, List.filter_cons_of_pos
              (by simpa using (tag_of_newest tag found).2), others rest fresh]
            rfl
      · have inRest : wanted ∈ rest :=
          (List.mem_cons.mp listed).resolve_left here
        cases found : newest tag messages first with
        | none =>
            rw [List.filterMap_cons_none found]
            exact induction distinct inRest
        | some message =>
            rw [List.filterMap_cons_some found, List.filter_cons_of_neg
              (by simpa [(tag_of_newest tag found).2] using Ne.symm here)]
            exact induction distinct inRest

/-- Only the newest message of each tag, in any order: a register gets what the
newest message of its tag says. -/
theorem merged_of_newest {messages chosen : List Message} {tags : List Tag}
    (distinct : tags.Nodup)
    (newestOnly : chosen.Perm (tags.filterMap (newest tag messages)))
    (owned : Owned owner tag patch messages) {index : Index}
    (listed : owner index ∈ tags) :
    merged (chosen.map patch) index =
      (newest tag messages (owner index)).bind fun message =>
        patch message index := by
  have chosenOwned : Owned owner tag patch chosen := by
    intro message member
    obtain ⟨other, -, isNewest⟩ :=
      List.mem_filterMap.mp (newestOnly.mem_iff.mp member)
    exact owned message (tag_of_newest tag isNewest).1
  have only : (chosen.filter fun message => tag message = owner index) =
      (newest tag messages (owner index)).toList := by
    have permuted := newestOnly.filter fun message =>
      tag message = owner index
    rw [filter_newest tag messages distinct listed] at permuted
    cases found : newest tag messages (owner index) with
    | none =>
        rw [found] at permuted
        exact permuted.eq_nil
    | some message =>
        rw [found] at permuted
        exact List.perm_singleton.mp permuted
  rw [merged_of_owned owner tag patch chosenOwned, only]
  cases newest tag messages (owner index) with
  | none => rfl
  | some message =>
      cases said : patch message index <;> simp [said]

/-- What the newest message of its tag says of a register is the last word. -/
theorem merged_of_newest_some {messages : List Message}
    (owned : Owned owner tag patch messages) {index : Index}
    {value : Value index}
    (spoken : ((newest tag messages (owner index)).bind fun message =>
      patch message index) = some value) :
    merged (messages.map patch) index = some value := by
  obtain ⟨last, isNewest, said⟩ := Option.bind_eq_some_iff.mp spoken
  obtain ⟨front, whole⟩ := List.getLast?_eq_some_iff.mp isNewest
  rw [merged_of_owned owner tag patch owned, whole, List.filterMap_append]
  simp [said]

/-- For one register the newest message of its tag does the work of all exactly
when, if it is silent, the last word on the register is there already. -/
theorem apply_merged_eq_newest_iff {messages : List Message}
    (owned : Owned owner tag patch messages)
    (registers : ∀ index, Value index) (index : Index) :
    (merged (messages.map patch)).apply registers index =
        ((newest tag messages (owner index)).bind fun message =>
          patch message index).getD (registers index) ↔
      (((newest tag messages (owner index)).bind fun message =>
          patch message index) = none →
        ∀ value ∈ merged (messages.map patch) index,
          registers index = value) := by
  cases spoken : (newest tag messages (owner index)).bind fun message =>
      patch message index with
  | some value =>
      have lastWord := merged_of_newest_some owner tag patch owned spoken
      simp [apply, lastWord]
  | none =>
      cases lastWord : merged (messages.map patch) index with
      | none => simp [apply, lastWord]
      | some value => simp [apply, lastWord, eq_comm]

end Owned

end Patch

end PartialUpdate
