import SchemaCompiler.Binary64

/-!
The values that cells, options and callback arguments hold. An object keeps its fields sorted by
name, so two objects with the same fields are the same list. `Json.same` is the equality that
tables and index diffs use: integers and floating-point numbers are never equal, and the two
zeros of floating point are. It is an equivalence (`same_refl`, `same_symm`, `same_trans`).
-/
namespace SchemaCompiler

/-- A JSON number keeps whether it was written as an integer. -/
inductive Number where
  | int (value : Int)
  | float (value : Binary64)
  deriving DecidableEq

inductive Json where
  | null
  | bool (value : Bool)
  | number (value : Number)
  | string (value : String)
  | array (items : List Json)
  | object (fields : List (String × Json))

namespace Number

/-- Integers compare with integers and floats with floats. -/
def same : Number → Number → Bool
  | int a, int b => a == b
  | float a, float b => a.same b
  | _, _ => false

theorem same_refl (a : Number) : a.same a = true := by
  cases a <;> simp [same, Binary64.same_refl]

theorem same_symm {a b : Number} (h : a.same b = true) : b.same a = true := by
  cases a <;> cases b <;> simp_all [same]
  exact Binary64.same_symm h

theorem same_trans {a b c : Number} (hab : a.same b = true) (hbc : b.same c = true) :
    a.same c = true := by
  cases a <;> cases b <;> cases c <;> simp_all [same]
  exact Binary64.same_trans hab hbc

end Number

namespace Json

instance : Inhabited Json := ⟨null⟩

instance : Coe String Json := ⟨string⟩

instance : Coe Bool Json := ⟨bool⟩

def ofInt (n : Int) : Json := number (.int n)

def ofNat (n : Nat) : Json := number (.int n)

def ofUInt64 (n : UInt64) : Json := number (.int n.toNat)

def isNull : Json → Bool
  | null => true
  | _ => false

def asBool? : Json → Option Bool
  | bool b => some b
  | _ => none

def asString? : Json → Option String
  | string s => some s
  | _ => none

/-- An integer that fits an unsigned 64-bit word. -/
def asUInt64? : Json → Option UInt64
  | number (.int n) => if 0 ≤ n ∧ n < UInt64.size then some (UInt64.ofNat n.toNat) else none
  | _ => none

def asArray? : Json → Option (List Json)
  | array items => some items
  | _ => none

def asObject? : Json → Option (List (String × Json))
  | object fields => some fields
  | _ => none

/-- Files a field in name order; a name that is there takes the new value. -/
def insertField (name : String) (value : Json) : List (String × Json) → List (String × Json)
  | [] => [(name, value)]
  | (n, v) :: rest =>
    if n = name then (name, value) :: rest
    else if name < n then (name, value) :: (n, v) :: rest
    else (n, v) :: insertField name value rest

/-- The object with the given fields; of a repeated name the last value stays. -/
def ofFields (fields : List (String × Json)) : Json :=
  object (fields.foldl (fun sorted field => insertField field.1 field.2 sorted) [])

mutual

/-- Equality of values. -/
def same : Json → Json → Bool
  | null, null => true
  | bool a, bool b => a == b
  | number a, number b => a.same b
  | string a, string b => a == b
  | array a, array b => sameItems a b
  | object a, object b => sameFields a b
  | _, _ => false

def sameItems : List Json → List Json → Bool
  | [], [] => true
  | a :: as, b :: bs => same a b && sameItems as bs
  | _, _ => false

def sameFields : List (String × Json) → List (String × Json) → Bool
  | [], [] => true
  | (m, a) :: as, (n, b) :: bs => m == n && same a b && sameFields as bs
  | _, _ => false

end

mutual

theorem same_refl : ∀ a : Json, same a a = true
  | null => by simp [same]
  | bool _ => by simp [same]
  | number n => by simp [same, Number.same_refl]
  | string _ => by simp [same]
  | array items => by simp [same, sameItems_refl items]
  | object fields => by simp [same, sameFields_refl fields]

theorem sameItems_refl : ∀ as : List Json, sameItems as as = true
  | [] => by simp [sameItems]
  | a :: as => by simp [sameItems, same_refl a, sameItems_refl as]

theorem sameFields_refl : ∀ as : List (String × Json), sameFields as as = true
  | [] => by simp [sameFields]
  | (_, a) :: as => by simp [sameFields, same_refl a, sameFields_refl as]

end

mutual

theorem same_symm : ∀ {a b : Json}, same a b = true → same b a = true
  | null, b, h => by cases b <;> simp_all [same]
  | bool _, b, h => by cases b <;> simp_all [same]
  | number _, b, h => by
    cases b <;> simp only [same, Bool.false_eq_true] at h ⊢
    exact Number.same_symm h
  | string _, b, h => by cases b <;> simp_all [same]
  | array _, b, h => by
    cases b <;> simp only [same, Bool.false_eq_true] at h ⊢
    exact sameItems_symm h
  | object _, b, h => by
    cases b <;> simp only [same, Bool.false_eq_true] at h ⊢
    exact sameFields_symm h

theorem sameItems_symm : ∀ {as bs : List Json}, sameItems as bs = true → sameItems bs as = true
  | [], bs, h => by cases bs <;> simp_all [sameItems]
  | a :: as, bs, h => by
    cases bs <;> simp only [sameItems, Bool.false_eq_true, Bool.and_eq_true] at h ⊢
    exact ⟨same_symm h.1, sameItems_symm h.2⟩

theorem sameFields_symm : ∀ {as bs : List (String × Json)},
    sameFields as bs = true → sameFields bs as = true
  | [], bs, h => by cases bs <;> simp_all [sameFields]
  | (m, a) :: as, bs, h => by
    cases bs <;>
      simp only [sameFields, Bool.false_eq_true, Bool.and_eq_true, beq_iff_eq] at h ⊢
    exact ⟨⟨h.1.1.symm, same_symm h.1.2⟩, sameFields_symm h.2⟩

end

mutual

theorem same_trans : ∀ {a b c : Json}, same a b = true → same b c = true → same a c = true
  | null, b, c, hab, hbc => by cases b <;> cases c <;> simp_all [same]
  | bool _, b, c, hab, hbc => by cases b <;> cases c <;> simp_all [same]
  | number _, b, c, hab, hbc => by
    cases b <;> cases c <;> simp only [same, Bool.false_eq_true] at hab hbc ⊢
    exact Number.same_trans hab hbc
  | string _, b, c, hab, hbc => by cases b <;> cases c <;> simp_all [same]
  | array _, b, c, hab, hbc => by
    cases b <;> cases c <;> simp only [same, Bool.false_eq_true] at hab hbc ⊢
    exact sameItems_trans hab hbc
  | object _, b, c, hab, hbc => by
    cases b <;> cases c <;> simp only [same, Bool.false_eq_true] at hab hbc ⊢
    exact sameFields_trans hab hbc

theorem sameItems_trans : ∀ {as bs cs : List Json},
    sameItems as bs = true → sameItems bs cs = true → sameItems as cs = true
  | [], bs, cs, hab, hbc => by cases bs <;> cases cs <;> simp_all [sameItems]
  | a :: as, bs, cs, hab, hbc => by
    cases bs <;> cases cs <;>
      simp only [sameItems, Bool.false_eq_true, Bool.and_eq_true] at hab hbc ⊢
    exact ⟨same_trans hab.1 hbc.1, sameItems_trans hab.2 hbc.2⟩

theorem sameFields_trans : ∀ {as bs cs : List (String × Json)},
    sameFields as bs = true → sameFields bs cs = true → sameFields as cs = true
  | [], bs, cs, hab, hbc => by cases bs <;> cases cs <;> simp_all [sameFields]
  | (m, a) :: as, bs, cs, hab, hbc => by
    cases bs <;> cases cs <;>
      simp only [sameFields, Bool.false_eq_true, Bool.and_eq_true, beq_iff_eq] at hab hbc ⊢
    exact ⟨⟨hab.1.1.trans hbc.1.1, same_trans hab.1.2 hbc.1.2⟩,
      sameFields_trans hab.2 hbc.2⟩

end

end Json
end SchemaCompiler
