import IotEdgeAgent.Json.Value
import Mathlib.Data.Nat.Notation

/-!
# Properties of whole documents

Induction over a value and everything in it.
-/

namespace IotEdgeAgent.Json

open Strings Separated

variable {ν : Type}

namespace Value

@[elab_as_elim]
theorem induction {P : Value ν → Prop} (null : P .null) (boolean : ∀ value, P (.boolean value))
    (number : ∀ value, P (.number value)) (string : ∀ value, P (.string value))
    (array : ∀ items, (∀ item ∈ items, P item) → P (.array items))
    (object : ∀ members, (∀ member ∈ members, P member.2) → P (.object members))
    (value : Value ν) : P value :=
  @Value.rec ν P (fun items => ∀ item ∈ items, P item)
    (fun members => ∀ member ∈ members, P member.2) (fun member => P member.2)
    null boolean number string array object
    (List.forall_mem_nil _) (fun _ _ hitem hitems => List.forall_mem_cons.mpr ⟨hitem, hitems⟩)
    (List.forall_mem_nil _)
    (fun _ _ hmember hmembers => List.forall_mem_cons.mpr ⟨hmember, hmembers⟩)
    (fun _ _ hvalue => hvalue) value

mutual

def Everywhere (p : Value ν → Prop) : Value ν → Prop
  | .array items => p (.array items) ∧ AllItems p items
  | .object members => p (.object members) ∧ AllMembers p members
  | value => p value

def AllItems (p : Value ν → Prop) : List (Value ν) → Prop
  | [] => True
  | item :: items => Everywhere p item ∧ AllItems p items

def AllMembers (p : Value ν → Prop) : List (CText × Value ν) → Prop
  | [] => True
  | (_, value) :: members => Everywhere p value ∧ AllMembers p members

end

mutual

/-- How many arrays and objects stand around the innermost value. -/
def height : Value ν → ℕ
  | .array items => heightItems items
  | .object members => heightMembers members
  | _ => 0

def heightItems : List (Value ν) → ℕ
  | [] => 0
  | item :: items => max (height item + 1) (heightItems items)

def heightMembers : List (CText × Value ν) → ℕ
  | [] => 0
  | (_, value) :: members => max (height value + 1) (heightMembers members)

end

section
variable {p : Value ν → Prop} {items : List (Value ν)} {members : List (CText × Value ν)}
  {levels : ℕ}

theorem allItems_iff : AllItems p items ↔ ∀ item ∈ items, item.Everywhere p := by
  induction items with
  | nil => exact ⟨fun _ => List.forall_mem_nil _, fun _ => trivial⟩
  | cons item items ih => rw [AllItems, List.forall_mem_cons, ih]

theorem allMembers_iff : AllMembers p members ↔ ∀ member ∈ members, member.2.Everywhere p := by
  induction members with
  | nil => exact ⟨fun _ => List.forall_mem_nil _, fun _ => trivial⟩
  | cons member members ih => rw [AllMembers, List.forall_mem_cons, ih]

@[simp] theorem everywhere_array :
    Everywhere p (.array items) ↔ p (.array items) ∧ ∀ item ∈ items, item.Everywhere p := by
  rw [Everywhere, allItems_iff]

@[simp] theorem everywhere_object :
    Everywhere p (.object members) ↔
      p (.object members) ∧ ∀ member ∈ members, member.2.Everywhere p := by
  rw [Everywhere, allMembers_iff]

theorem Everywhere.self {value : Value ν} (h : value.Everywhere p) : p value := by
  cases value with
  | array items => exact h.1
  | object members => exact h.1
  | _ => exact h

theorem heightItems_lt : heightItems items < levels + 1 ↔ ∀ item ∈ items, item.height < levels := by
  induction items with
  | nil => simp [heightItems]
  | cons item items ih =>
    rw [heightItems, Nat.max_lt, Nat.add_lt_add_iff_right, ih, List.forall_mem_cons]

theorem heightMembers_lt :
    heightMembers members < levels + 1 ↔ ∀ member ∈ members, member.2.height < levels := by
  induction members with
  | nil => simp [heightMembers]
  | cons member members ih =>
    rw [heightMembers, Nat.max_lt, Nat.add_lt_add_iff_right, ih, List.forall_mem_cons]

end

def DistinctNames : Value ν → Prop
  | .object members => (members.map (·.1)).Nodup
  | _ => True

end Value

section
variable {numbers : Numbers ν} {isPretty : Bool} {level : ℕ}

theorem itemTexts_eq (items : List (Value ν)) :
    itemTexts numbers isPretty level items = items.map (serialize numbers isPretty level) := by
  induction items with
  | nil => rfl
  | cons item items ih => rw [itemTexts, ih, List.map_cons]

theorem memberTexts_eq (members : List (CText × Value ν)) :
    memberTexts numbers isPretty level members =
      members.map fun member => (member.1, serialize numbers isPretty level member.2) := by
  induction members with
  | nil => rfl
  | cons member members ih => rw [memberTexts, ih, List.map_cons]

end

end IotEdgeAgent.Json
