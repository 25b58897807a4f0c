/-
This file says what the table of a program holds when no two procedures have one name: a
name then stands for the one procedure of that name, wherever the procedure stands among
the others and whichever of them are looked at first.
-/

import Mathlib.Data.List.Nodup
import Scriptlet.Machine

namespace Scriptlet

/-- Where no two items have one key, an item is found by its key exactly if it is there. -/
theorem find?_key_eq_some_iff {α : Type} {key : α → String} {items : List α}
    (distinct : (items.map key).Nodup) {name : String} {item : α} :
    items.find? (fun item => key item == name) = some item ↔ item ∈ items ∧ key item = name := by
  induction items with
  | nil => simp
  | cons first rest inductionHypothesis =>
    rw [List.map_cons, List.nodup_cons] at distinct
    by_cases here : key first = name
    · have found : (key first == name) = true := beq_iff_eq.mpr here
      rw [List.find?_cons, found, Option.some.injEq, List.mem_cons]
      constructor
      · rintro rfl
        exact ⟨Or.inl rfl, here⟩
      · rintro ⟨rfl | inRest, same⟩
        · rfl
        · exact absurd (List.mem_map.mpr ⟨item, inRest, same.trans here.symm⟩) distinct.1
    · have other : (key first == name) = false := beq_eq_false_iff_ne.mpr here
      rw [List.find?_cons, other, inductionHypothesis distinct.2, List.mem_cons]
      constructor
      · rintro ⟨inRest, same⟩
        exact ⟨Or.inr inRest, same⟩
      · rintro ⟨rfl | inRest, same⟩
        · exact absurd same here
        · exact ⟨inRest, same⟩

namespace ProcedureTable

variable {identity : Nat} {scope : ScopeId} {procedures : List Procedure}

theorem mem_build {closure : Closure} :
    closure ∈ (build identity scope procedures).entries ↔
      ∃ place, procedures[place]? = some closure.procedure ∧
        closure = ⟨identity + place, closure.procedure, scope⟩ := by
  rw [build, List.mem_reverse, List.mem_mapIdx]
  constructor
  · rintro ⟨place, inside, rfl⟩
    exact ⟨place, List.getElem?_eq_getElem inside, rfl⟩
  · rintro ⟨place, found, same⟩
    obtain ⟨inside, isProcedure⟩ := List.getElem?_eq_some_iff.mp found
    exact ⟨place, inside, by rw [isProcedure]; exact same.symm⟩

theorem names_build :
    (build identity scope procedures).entries.map (fun closure => closure.procedure.name) =
      (procedures.map Procedure.name).reverse := by
  rw [build, List.map_reverse]
  refine congrArg List.reverse (List.ext_getElem? fun place => ?_)
  rw [List.getElem?_map, List.getElem?_mapIdx, List.getElem?_map, Option.map_map]
  rfl

/-- A name stands for the one procedure of that name. -/
theorem find?_build (distinct : (procedures.map Procedure.name).Nodup) {name : String}
    {closure : Closure} :
    (build identity scope procedures).find? name = some closure ↔
      (∃ place, procedures[place]? = some closure.procedure ∧
        closure = ⟨identity + place, closure.procedure, scope⟩) ∧
      closure.procedure.name = name := by
  rw [find?, find?_key_eq_some_iff, mem_build]
  rw [names_build]
  exact List.nodup_reverse.mpr distinct

end ProcedureTable

/-- The table and the program have the same procedure for every name. -/
theorem Program.procedure?_eq_find? {program : Program}
    (distinct : (program.procedures.map Procedure.name).Nodup) (identity : Nat) (scope : ScopeId)
    (name : String) :
    program.procedure? name =
      ((ProcedureTable.build identity scope program.procedures).find? name).map
        Closure.procedure := by
  refine Option.ext fun procedure => ?_
  rw [procedure?, find?_key_eq_some_iff distinct, Option.map_eq_some_iff]
  constructor
  · rintro ⟨member, same⟩
    obtain ⟨place, found⟩ := List.mem_iff_getElem?.mp member
    exact ⟨⟨identity + place, procedure, scope⟩,
      (ProcedureTable.find?_build distinct).mpr ⟨⟨place, found, rfl⟩, same⟩, rfl⟩
  · rintro ⟨closure, found, rfl⟩
    obtain ⟨⟨place, inside, -⟩, same⟩ := (ProcedureTable.find?_build distinct).mp found
    exact ⟨List.mem_of_getElem? inside, same⟩

end Scriptlet
