import M68k.Bus.Store
import Mathlib.Data.List.Infix

/-!
# Placing programs

Whoever places a program finds it again at the offset given, and whatever was placed before stays
where it was. Sharing placements look programs up in an index, so that they need the index to be
right, and keep it so.

## Main definitions

* `ProgramStore.Holds`: a program is stored at an offset
* `ProgramStore.Sound`: the index of a store is right
* `Placement.Faithful`: a placement that stores what it is given and moves nothing

## Main results

* `ProgramStore.place_faithful`, `ProgramStore.append_faithful`: both placements are faithful
-/

namespace M68k

theorem isPrefix_drop_of_firstOccurrence? {run steps : List BusStep} {offset : Nat}
    (h : firstOccurrence? run steps = some offset) : run <+: steps.drop offset := by
  induction steps generalizing offset with
  | nil =>
    simp only [firstOccurrence?, List.isEmpty_iff] at h
    split at h
    · simp_all
    · cases h
  | cons step steps ih =>
    rw [firstOccurrence?] at h
    split at h
    · next hrun =>
      cases h
      simpa using hrun
    · obtain ⟨before, hbefore, rfl⟩ := Option.map_eq_some_iff.mp h
      simpa using ih hbefore

namespace ProgramStore

variable {store later : ProgramStore} {program : List BusStep} {offset : Nat}

/-- `program` is stored at `offset`. -/
def Holds (store : ProgramStore) (offset : Nat) (program : List BusStep) : Prop :=
  program <+: store.steps.toList.drop offset

/-- The index only knows programs that are stored where it says. -/
def Sound (store : ProgramStore) : Prop :=
  ∀ program offset, store.placed[program]? = some offset → store.Holds offset program

/-- `later` has grown from `store`, at its end. -/
def GrownTo (store later : ProgramStore) : Prop := store.steps.toList <+: later.steps.toList

theorem GrownTo.refl (store : ProgramStore) : store.GrownTo store := List.prefix_rfl

theorem GrownTo.trans {latest : ProgramStore} (h : store.GrownTo later)
    (h' : later.GrownTo latest) : store.GrownTo latest :=
  List.IsPrefix.trans h h'

/-- Growing moves no program. -/
theorem Holds.mono (h : store.Holds offset program) (hgrown : store.GrownTo later) :
    later.Holds offset program :=
  h.trans (List.IsPrefix.drop hgrown offset)

theorem sound_empty : empty.Sound := by
  intro program offset h
  simp [empty] at h

theorem grownTo_append (store : ProgramStore) (program : List BusStep) :
    store.GrownTo (store.append program).2 := by
  simp [GrownTo, append]

theorem holds_append (store : ProgramStore) (program : List BusStep) :
    (store.append program).2.Holds (store.append program).1 program := by
  simp [Holds, append, size]

theorem sound_append (h : store.Sound) : (store.append program).2.Sound := by
  intro known offset hknown
  exact (h known offset hknown).mono (grownTo_append store program)

/-- Entering a stored program into the index keeps it right. -/
theorem Sound.insert (h : store.Sound) (hheld : store.Holds offset program) :
    Sound { store with placed := store.placed.insert program offset } := by
  intro known place hknown
  rw [Std.HashMap.getElem?_insert] at hknown
  split at hknown
  · next heq =>
    cases hknown
    rw [← eq_of_beq heq]
    exact hheld
  · exact h known place hknown

end ProgramStore

/-- A placement that stores what it is given, moves nothing, and keeps the index right. -/
structure Placement.Faithful (place : Placement) : Prop where
  holds {store : ProgramStore} (h : store.Sound) (program : List BusStep) :
    (place store program).2.Holds (place store program).1 program
  grownTo (store : ProgramStore) (program : List BusStep) : store.GrownTo (place store program).2
  sound {store : ProgramStore} (h : store.Sound) (program : List BusStep) :
    (place store program).2.Sound

namespace ProgramStore

theorem append_faithful : Placement.Faithful append where
  holds _ program := holds_append _ program
  grownTo := grownTo_append
  sound h _ := sound_append h

theorem place_faithful : Placement.Faithful place where
  holds {store} h program := by
    unfold place
    split
    · next offset hknown => exact h program offset hknown
    · split
      next found offset after hfound =>
      split at hfound
      · next hoccurs =>
        cases hfound
        exact isPrefix_drop_of_firstOccurrence? hoccurs
      · cases hfound
        exact holds_append store program
  grownTo store program := by
    unfold place
    split
    · exact .refl store
    · split
      next found offset after hfound =>
      split at hfound
      · cases hfound
        exact .refl store
      · cases hfound
        exact grownTo_append store program
  sound {store} h program := by
    unfold place
    split
    · exact h
    · split
      next found offset after hfound =>
      split at hfound
      · next hoccurs =>
        cases hfound
        exact h.insert (isPrefix_drop_of_firstOccurrence? hoccurs)
      · cases hfound
        exact (sound_append h).insert (holds_append store program)

end ProgramStore

end M68k
