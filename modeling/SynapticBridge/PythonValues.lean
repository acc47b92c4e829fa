import SynapticBridge.Domain
import SynapticBridge.PythonText
import Mathlib.Data.List.Infix
import Mathlib.Data.String.Basic

/-! Operators of Python on `PyVal`: equality, ordering, truth and membership. Numbers of
all types compare by value, and a comparison that Python refuses raises. -/
namespace PythonValues

open Domain

variable {K : Type} [Field K] [LinearOrder K]

/-- A number of any Python type. -/
inductive Number (K : Type) where
  | finite (x : K)
  | infinite (negative : Bool)
  | nan

def number : PyVal K → Option (Number K)
  | .bool b => some (.finite (if b then 1 else 0))
  | .int n => some (.finite n)
  | .float x => some (.finite x)
  | .infinity negative => some (.infinite negative)
  | .nan => some .nan
  | _ => none

def Number.eq : Number K → Number K → Bool
  | .finite x, .finite y => decide (x = y)
  | .infinite a, .infinite b => a == b
  | _, _ => false

inductive Comparison where
  | lt
  | le
  | gt
  | ge

/-- The comparison on a linear order. -/
def Comparison.holds {α : Type*} [LinearOrder α] (op : Comparison) (a b : α) : Bool :=
  match op with
  | .lt => decide (a < b)
  | .le => decide (a ≤ b)
  | .gt => decide (b < a)
  | .ge => decide (b ≤ a)

/-- Infinities and finite numbers by their place on the extended line. -/
def Number.compare (op : Comparison) : Number K → Number K → Bool
  | .nan, _ => false
  | _, .nan => false
  | .finite x, .finite y => op.holds x y
  | .finite _, .infinite negative => op.holds (0 : ℤ) (if negative then -1 else 1)
  | .infinite negative, .finite _ => op.holds (if negative then -1 else 1) (0 : ℤ)
  | .infinite a, .infinite b => op.holds (if a then -1 else 1 : ℤ) (if b then -1 else 1)

mutual

/-- `a == b`. -/
def eq : PyVal K → PyVal K → Bool
  | .none, .none => true
  | .str a, .str b => a == b
  | .list xs, .list ys => eqList xs ys
  | .dict xs, .dict ys => xs.length == ys.length && eqDict xs ys
  | a, b =>
    match number a, number b with
    | some x, some y => x.eq y
    | _, _ => false

def eqList : List (PyVal K) → List (PyVal K) → Bool
  | [], [] => true
  | x :: xs, y :: ys => eq x y && eqList xs ys
  | _, _ => false

/-- Every entry of the first dictionary is in the second. -/
def eqDict : List (String × PyVal K) → List (String × PyVal K) → Bool
  | [], _ => true
  | (k, v) :: rest, ys =>
    (match ys.lookup k with
      | some v' => eq v v'
      | none => false) && eqDict rest ys

end

def typeName : PyVal K → String
  | .none => "NoneType"
  | .bool _ => "bool"
  | .int _ => "int"
  | .float _ | .infinity _ | .nan => "float"
  | .str _ => "str"
  | .list _ => "list"
  | .dict _ => "dict"

def Comparison.symbol : Comparison → String
  | .lt => "<"
  | .le => "<="
  | .gt => ">"
  | .ge => ">="

mutual

/-- `a < b` and its siblings. Texts compare by code points; lists compare at their first
difference, or else by length. -/
def compare (op : Comparison) : PyVal K → PyVal K → Except PyException Bool
  | .str a, .str b => .ok (op.holds a b)
  | .list xs, .list ys => compareList op xs ys
  | a, b =>
    match number a, number b with
    | some x, some y => .ok (x.compare op y)
    | _, _ => .error (.typeError (s!"'{op.symbol}' not supported between instances of " ++
        s!"'{typeName a}' and '{typeName b}'"))

def compareList (op : Comparison) :
    List (PyVal K) → List (PyVal K) → Except PyException Bool
  | x :: xs, y :: ys => if eq x y then compareList op xs ys else compare op x y
  | xs, ys => .ok (op.holds xs.length ys.length)

end

/-- `bool(a)`. -/
def truthy : PyVal K → Bool
  | .none => false
  | .bool b => b
  | .int n => decide (n ≠ 0)
  | .float x => decide (x ≠ 0)
  | .infinity _ => true
  | .nan => true
  | .str s => !s.toList.isEmpty
  | .list xs => !xs.isEmpty
  | .dict xs => !xs.isEmpty

/-- `item in container`. -/
def contains : PyVal K → PyVal K → Except PyException Bool
  | .str s, .str t => .ok (decide (t.toList <:+: s.toList))
  | .str _, item => .error (.typeError
      s!"'in <string>' requires string as left operand, not {typeName item}")
  | .list xs, item => .ok (xs.any fun x => eq x item)
  | .dict xs, .str key => .ok ((xs.lookup key).isSome)
  | .dict _, .list _ => .error (.typeError "unhashable type: 'list'")
  | .dict _, .dict _ => .error (.typeError "unhashable type: 'dict'")
  | .dict _, _ => .ok false
  | container, _ => .error (.typeError s!"argument of type '{typeName container}' is not iterable")

end PythonValues
