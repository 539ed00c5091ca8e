import Mathlib.Algebra.Order.Ring.Int
import Mathlib.Data.List.Basic
import Mathlib.Tactic.Common

/-!
# JSON values

The content of an event is an opaque `serde_json::Value`. This module gives
the values and the few accessors the engine uses on them: `get` on an
object, the `as_*` projections, and `Map::insert` through `as_object_mut`.

A number is kept as an `Int` when it is integral and as its decimal text
otherwise, since the engine never computes with a fractional number it
reads back from a content. An object is an association list in which the
first binding of a key counts; `insertKey` keeps keys distinct, as the
source's map does. Every accessor is total and answers `none` on a value of
another shape, exactly as the `Option`-valued accessors of the source.
-/

namespace AirNote

/-- A JSON value (`serde_json::Value`). -/
inductive Json where
  | null
  | bool (b : Bool)
  | num (n : Int)
  | float (text : String)
  | str (s : String)
  | arr (items : List Json)
  | obj (fields : List (String × Json))
  deriving Repr, Inhabited

namespace Json

/-- The first binding of `k` in the fields of an object. -/
def lookup (k : String) : List (String × Json) → Option Json
  | [] => none
  | (k', v) :: rest => if k' = k then some v else lookup k rest

/-- `Map::insert`: replace the binding of `k`, or add one. -/
def insertKey (k : String) (v : Json) :
    List (String × Json) → List (String × Json)
  | [] => [(k, v)]
  | (k', w) :: rest =>
      if k' = k then (k, v) :: rest else (k', w) :: insertKey k v rest

@[simp] theorem lookup_insertKey_self (k : String) (v : Json)
    (fields : List (String × Json)) :
    lookup k (insertKey k v fields) = some v := by
  induction fields with
  | nil => simp [insertKey, lookup]
  | cons f rest ih =>
      by_cases hk : f.1 = k
      · simp [insertKey, lookup, hk]
      · simp [insertKey, lookup, hk, ih]

/-- `Map::remove`: drop the binding of `k`. -/
def removeKey (k : String) (fields : List (String × Json)) :
    List (String × Json) :=
  fields.filter fun f => f.1 ≠ k

/-- `Value::get` with a string index: a member of an object. -/
def get? (j : Json) (k : String) : Option Json :=
  match j with
  | obj fields => lookup k fields
  | _ => none

/-- `Value::as_str`. -/
def asStr : Json → Option String
  | str s => some s
  | _ => none

/-- `Value::as_i64`. -/
def asI64 : Json → Option Int
  | num n => if -(2 ^ 63 : Int) ≤ n ∧ n < 2 ^ 63 then some n else none
  | _ => none

/-- `Value::as_u64`. -/
def asU64 : Json → Option Nat
  | num n => if 0 ≤ n ∧ n < 2 ^ 64 then some n.toNat else none
  | _ => none

/-- `Value::as_bool`. -/
def asBool : Json → Option Bool
  | bool b => some b
  | _ => none

/-- `Value::as_array`. -/
def asArray : Json → Option (List Json)
  | arr items => some items
  | _ => none

/-- `Value::is_object`. -/
def isObject : Json → Bool
  | obj _ => true
  | _ => false

/-- `value.get(k).and_then(|v| v.as_str())`. -/
def getStr? (j : Json) (k : String) : Option String :=
  (j.get? k).bind asStr

/-- `value.get(k).and_then(|v| v.as_u64())`. -/
def getU64? (j : Json) (k : String) : Option Nat :=
  (j.get? k).bind asU64

/-- `value.get(k).and_then(|v| v.as_i64())`. -/
def getI64? (j : Json) (k : String) : Option Int :=
  (j.get? k).bind asI64

/-- `if let Some(obj) = value.as_object_mut() { obj.insert(k, v); }`: the
insertion happens in an object and nowhere else. -/
def insertIfObject (j : Json) (k : String) (v : Json) : Json :=
  match j with
  | obj fields => obj (insertKey k v fields)
  | other => other

theorem asU64_eq_some {j : Json} {p : Nat} (h : j.asU64 = some p) :
    j = .num p ∧ p < 2 ^ 64 := by
  cases j with
  | num n =>
      rw [asU64, Option.ite_none_right_eq_some, Option.some.injEq] at h
      have hp : n = (p : Int) := by omega
      exact ⟨by rw [hp], by omega⟩
  | _ => cases h

theorem asI64_num {i : Int} (h : -2 ^ 63 ≤ i ∧ i < 2 ^ 63) :
    (num i).asI64 = some i := by
  rw [asI64, if_pos h]

theorem asU64_num {p : Nat} (h : p < 2 ^ 64) : (num p).asU64 = some p := by
  have hbound : 0 ≤ (p : Int) ∧ (p : Int) < 2 ^ 64 := by omega
  rw [asU64, if_pos hbound, Int.toNat_natCast]

/-! ## Decidable equality -/

mutual

/-- Structural equality; the two companions compare the items of an array
and the members of an object. -/
def eqv : Json → Json → Bool
  | .null, .null => true
  | .bool a, .bool b => a == b
  | .num a, .num b => a == b
  | .float a, .float b => a == b
  | .str a, .str b => a == b
  | .arr a, .arr b => eqvItems a b
  | .obj a, .obj b => eqvFields a b
  | _, _ => false

def eqvItems : List Json → List Json → Bool
  | [], [] => true
  | a :: as, b :: bs => eqv a b && eqvItems as bs
  | _, _ => false

def eqvFields : List (String × Json) → List (String × Json) → Bool
  | [], [] => true
  | (k, a) :: as, (k', b) :: bs => k == k' && eqv a b && eqvFields as bs
  | _, _ => false

end

mutual

theorem eqv_iff : ∀ (a b : Json), eqv a b = true ↔ a = b
  | .null, b => by cases b <;> simp [eqv]
  | .bool _, b => by cases b <;> simp [eqv]
  | .num _, b => by cases b <;> simp [eqv]
  | .float _, b => by cases b <;> simp [eqv]
  | .str _, b => by cases b <;> simp [eqv]
  | .arr _, b => by cases b <;> simp [eqv, eqvItems_iff]
  | .obj _, b => by cases b <;> simp [eqv, eqvFields_iff]

theorem eqvItems_iff :
    ∀ (as bs : List Json), eqvItems as bs = true ↔ as = bs
  | [], bs => by cases bs <;> simp [eqvItems]
  | a :: as, bs => by
      cases bs with
      | nil => simp [eqvItems]
      | cons b bs => simp [eqvItems, eqv_iff a, eqvItems_iff as]

theorem eqvFields_iff : ∀ (as bs : List (String × Json)),
    eqvFields as bs = true ↔ as = bs
  | [], bs => by cases bs <;> simp [eqvFields]
  | (k, a) :: as, bs => by
      cases bs with
      | nil => simp [eqvFields]
      | cons b bs =>
          obtain ⟨k', b⟩ := b
          simp [eqvFields, eqv_iff a, eqvFields_iff as, and_assoc]

end

instance : DecidableEq Json := fun _ _ => decidable_of_iff _ (eqv_iff _ _)

/-! ## Lookup after insertion and removal -/

theorem lookup_insertKey_ne {k k' : String} (hne : k' ≠ k) (v : Json)
    (fields : List (String × Json)) :
    lookup k' (insertKey k v fields) = lookup k' fields := by
  induction fields with
  | nil => simp [insertKey, lookup, hne.symm]
  | cons f rest ih =>
      by_cases hk : f.1 = k
      · have hf : ¬ f.1 = k' := fun h => hne (h.symm.trans hk)
        simp [insertKey, lookup, hk, hne.symm]
      · by_cases hk' : f.1 = k'
        · simp [insertKey, lookup, hk', hne]
        · simp [insertKey, lookup, hk, hk', ih]

theorem mem_insertKey {k : String} {v : Json} {fields : List (String × Json)}
    {q : String × Json} (h : q ∈ insertKey k v fields) :
    q = (k, v) ∨ q ∈ fields := by
  induction fields with
  | nil => exact .inl (List.mem_singleton.mp h)
  | cons f rest ih =>
      by_cases hk : f.1 = k
      · rw [insertKey, if_pos hk, List.mem_cons] at h
        exact h.imp_right (List.mem_cons_of_mem f)
      · rw [insertKey, if_neg hk, List.mem_cons] at h
        rcases h with rfl | h
        · exact .inr (by simp)
        · exact (ih h).imp_right (List.mem_cons_of_mem f)

theorem lookup_removeKey_ne {k k' : String} (hne : k' ≠ k)
    (fields : List (String × Json)) :
    lookup k' (removeKey k fields) = lookup k' fields := by
  induction fields with
  | nil => rfl
  | cons f rest ih =>
      by_cases hk : f.1 = k
      · have hf : ¬ f.1 = k' := fun h => hne (h.symm.trans hk)
        have hstep : removeKey k (f :: rest) = removeKey k rest := by
          simp [removeKey, hk]
        rw [hstep, ih]
        simp [lookup, hf]
      · have hstep : removeKey k (f :: rest) = f :: removeKey k rest := by
          simp [removeKey, hk]
        rw [hstep]
        simp only [lookup, ih]

/-! ## The names of an object -/

theorem mem_names_iff {k : String} {fields : List (String × Json)} :
    k ∈ fields.map Prod.fst ↔ ∃ v, lookup k fields = some v := by
  induction fields with
  | nil => simp [lookup]
  | cons f rest ih =>
      rw [List.map_cons, List.mem_cons, ih, lookup]
      by_cases hk : f.1 = k
      · simp [hk]
      · simp [hk, Ne.symm hk]

theorem mem_of_lookup {k : String} {v : Json} {fields : List (String × Json)}
    (h : lookup k fields = some v) : (k, v) ∈ fields := by
  induction fields with
  | nil => cases h
  | cons f rest ih =>
      rw [lookup] at h
      split at h
      next hk =>
        rw [← hk, ← Option.some.inj h]
        exact List.mem_cons_self
      next => exact List.mem_cons_of_mem _ (ih h)

theorem lookup_of_mem {k : String} {v : Json} {fields : List (String × Json)}
    (hnodup : (fields.map Prod.fst).Nodup) (h : (k, v) ∈ fields) :
    lookup k fields = some v := by
  induction fields with
  | nil => cases h
  | cons f rest ih =>
      rw [List.map_cons, List.nodup_cons] at hnodup
      rcases List.mem_cons.mp h with rfl | h
      · exact if_pos rfl
      · have hne : f.1 ≠ k := by
          intro hk
          exact hnodup.1 (List.mem_map.mpr ⟨(k, v), h, hk.symm⟩)
        rw [lookup, if_neg hne, ih hnodup.2 h]

theorem lookup_eq_none {k : String} {fields : List (String × Json)} :
    lookup k fields = none ↔ k ∉ fields.map Prod.fst := by
  rw [mem_names_iff]
  cases lookup k fields <;> simp

theorem nodup_insertKey {fields : List (String × Json)} (k : String)
    (v : Json) (h : (fields.map Prod.fst).Nodup) :
    ((insertKey k v fields).map Prod.fst).Nodup := by
  induction fields with
  | nil => simp [insertKey]
  | cons f rest ih =>
      rw [List.map_cons, List.nodup_cons] at h
      by_cases hk : f.1 = k
      · rw [insertKey, if_pos hk, List.map_cons, List.nodup_cons]
        exact ⟨hk ▸ h.1, h.2⟩
      · rw [insertKey, if_neg hk, List.map_cons, List.nodup_cons]
        refine ⟨?_, ih h.2⟩
        intro hmem
        obtain ⟨q, hq, hname⟩ := List.mem_map.mp hmem
        rcases mem_insertKey hq with rfl | hq
        · exact hk hname.symm
        · exact h.1 (List.mem_map.mpr ⟨q, hq, hname⟩)

@[simp] theorem get?_insertIfObject_self (k : String) (v : Json)
    (fields : List (String × Json)) :
    ((obj fields).insertIfObject k v).get? k = some v := by
  simp [insertIfObject, get?]

theorem get?_insertIfObject_ne {k k' : String} (hne : k' ≠ k) (v : Json)
    (j : Json) : (j.insertIfObject k v).get? k' = j.get? k' := by
  cases j with
  | obj fields => simp [insertIfObject, get?, lookup_insertKey_ne hne]
  | _ => rfl

theorem getStr?_insertIfObject_ne {k k' : String} (hne : k' ≠ k) (v : Json)
    (j : Json) : (j.insertIfObject k v).getStr? k' = j.getStr? k' := by
  simp [getStr?, get?_insertIfObject_ne hne]

end Json

end AirNote
