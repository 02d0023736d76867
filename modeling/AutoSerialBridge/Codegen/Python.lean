import Mathlib

/-!
# Auto Serial Bridge — the values and operations of `codegen.py`

What `yaml.safe_load` can return, and the Python operations the generator applies to it: `==`,
`hash`, truth value, `str`, `repr`, `dict.get`, `in`. An operation that can raise returns
`Except PyError`. Values with an explicit tag (`!!binary`, `!!set`, `!!omap`) are left out.

A mapping is the list of its entries in insertion order. Its keys are scalars, since
`safe_load` refuses an unhashable key.
-/

namespace AutoSerialBridge

-- ---------------------------------------------------------------------------
-- Values
-- ---------------------------------------------------------------------------

/-- A Python float; a finite one by the shortest decimal digits that denote it, the number
`± digits * 10 ^ exponent`. -/
inductive PyFloat where
  | finite (negative : Bool) (digits : Nat) (exponent : Int)
  | inf (negative : Bool)
  | nan
deriving DecidableEq

/-- A scalar YAML value. A date or time is known by its `str` and its `repr`. -/
inductive Scalar where
  | null
  | bool (value : Bool)
  | int (value : Int)
  | float (value : PyFloat)
  | str (value : String)
  | timestamp (text reprText : String)
deriving DecidableEq

/-- A value `yaml.safe_load` returns. -/
inductive Yaml where
  | scalar (value : Scalar)
  | list (items : List Yaml)
  | map (entries : List (Scalar × Yaml))

namespace Yaml

abbrev null : Yaml := .scalar .null
abbrev bool (b : Bool) : Yaml := .scalar (.bool b)
abbrev int (n : Int) : Yaml := .scalar (.int n)
abbrev str (s : String) : Yaml := .scalar (.str s)

end Yaml

-- ---------------------------------------------------------------------------
-- str and repr
-- ---------------------------------------------------------------------------

/-- `float.__repr__`: positional notation unless the exponent is small or large. -/
def PyFloat.repr : PyFloat → String
  | .nan => "nan"
  | .inf negative => (if negative then "-" else "") ++ "inf"
  | .finite negative digits exponent =>
    let ds := toString digits
    -- the position of the decimal point relative to the first digit
    let point : Int := ds.length + exponent
    let body :=
      if point ≤ -4 ∨ point > 16 then
        let e := point - 1
        let es := toString e.natAbs
        String.ofList (ds.toList.take 1) ++
          (if ds.length > 1 then "." ++ String.ofList (ds.toList.drop 1) else "") ++ "e" ++
          (if e < 0 then "-" else "+") ++ (if es.length < 2 then "0" ++ es else es)
      else if point ≤ 0 then
        "0." ++ String.ofList (List.replicate (-point).toNat '0') ++ ds
      else if ds.length ≤ point.toNat then
        ds ++ String.ofList (List.replicate (point.toNat - ds.length) '0') ++ ".0"
      else
        String.ofList (ds.toList.take point.toNat) ++ "." ++
          String.ofList (ds.toList.drop point.toNat)
    (if negative then "-" else "") ++ body

/-- `str.__repr__`; every character outside ASCII counts as printable. -/
def pyReprStr (s : String) : String :=
  let quote := if s.toList.contains '\'' && !s.toList.contains '"' then '"' else '\''
  let hex (n : Nat) : Char := "0123456789abcdef".toList.getD n '0'
  let escape (c : Char) : List Char :=
    if c = quote ∨ c = '\\' then ['\\', c]
    else if c = '\n' then ['\\', 'n']
    else if c = '\r' then ['\\', 'r']
    else if c = '\t' then ['\\', 't']
    else if c.toNat < 0x20 ∨ c.toNat = 0x7F then
      ['\\', 'x', hex (c.toNat / 16), hex (c.toNat % 16)]
    else [c]
  String.ofList (quote :: s.toList.flatMap escape ++ [quote])

def Scalar.pyStr : Scalar → String
  | .null => "None"
  | .bool b => if b then "True" else "False"
  | .int n => toString n
  | .float x => x.repr
  | .str s => s
  | .timestamp text _ => text

def Scalar.pyRepr : Scalar → String
  | .str s => pyReprStr s
  | .timestamp _ reprText => reprText
  | s => s.pyStr

mutual

def Yaml.pyRepr : Yaml → String
  | .scalar s => s.pyRepr
  | .list items => "[" ++ ", ".intercalate (Yaml.pyReprItems items) ++ "]"
  | .map entries => "\x7b" ++ ", ".intercalate (Yaml.pyReprEntries entries) ++ "\x7d"

def Yaml.pyReprItems : List Yaml → List String
  | [] => []
  | v :: rest => Yaml.pyRepr v :: Yaml.pyReprItems rest

def Yaml.pyReprEntries : List (Scalar × Yaml) → List String
  | [] => []
  | (k, v) :: rest => (k.pyRepr ++ ": " ++ Yaml.pyRepr v) :: Yaml.pyReprEntries rest

end

/-- The most digits of an integer that `str` converts. -/
def maxStrDigits : Nat := 4300

/-- `str` of the scalar does not raise. -/
def Scalar.printable : Scalar → Bool
  | .int n => n.natAbs < 10 ^ maxStrDigits
  | _ => true

mutual

/-- `str` and `repr` of the value do not raise: no integer in it has too many digits. -/
def Yaml.printable : Yaml → Bool
  | .scalar s => s.printable
  | .list items => Yaml.printableItems items
  | .map entries => Yaml.printableEntries entries

def Yaml.printableItems : List Yaml → Bool
  | [] => true
  | v :: rest => Yaml.printable v && Yaml.printableItems rest

def Yaml.printableEntries : List (Scalar × Yaml) → Bool
  | [] => true
  | (k, v) :: rest => k.printable && Yaml.printable v && Yaml.printableEntries rest

end

/-- `str(v)`, where it does not raise. -/
def pyStr : Yaml → String
  | .scalar s => s.pyStr
  | v => v.pyRepr

/-- `str.upper`, where it can give an ASCII letter. No ligature's or accented letter's upper case
matters to a comparison of the generator. -/
def pyUpper (s : String) : String :=
  String.ofList (s.toList.map fun c =>
    if c = 'ſ' then 'S' else if c = 'ı' then 'I' else c.toUpper)

/-- `str.lower`, on ASCII letters. -/
def pyLower (s : String) : String := String.ofList (s.toList.map Char.toLower)

/-- `str.isspace` of one character. -/
def pyIsSpace (c : Char) : Bool :=
  let n := c.toNat
  (9 ≤ n && n ≤ 13) || (0x1C ≤ n && n ≤ 0x20) || n == 0x85 || n == 0xA0 || n == 0x1680 ||
    (0x2000 ≤ n && n ≤ 0x200A) || n == 0x2028 || n == 0x2029 || n == 0x202F || n == 0x205F ||
    n == 0x3000

/-- `str.strip()`. -/
def pyStrip (s : String) : String :=
  String.ofList (((s.toList.dropWhile pyIsSpace).reverse.dropWhile pyIsSpace).reverse)

-- ---------------------------------------------------------------------------
-- Equality, hashing, truth
-- ---------------------------------------------------------------------------

/-- The value of a number; Python compares `bool`, `int` and `float` by it. -/
def Scalar.number? : Scalar → Option ℚ
  | .bool b => some (if b then 1 else 0)
  | .int n => some n
  | .float (.finite negative digits exponent) =>
    some ((if negative then -1 else 1) * digits *
      (if 0 ≤ exponent then (10 ^ exponent.toNat : Nat) else 1 / (10 ^ (-exponent).toNat : Nat)))
  | _ => none

/-- `==` on scalars. -/
def Scalar.pyEq : Scalar → Scalar → Bool
  | .null, .null => true
  | .str a, .str b => a == b
  | .timestamp a _, .timestamp b _ => a == b
  | .float (.inf a), .float (.inf b) => a == b
  | a, b =>
    match a.number?, b.number? with
    | some x, some y => x == y
    | _, _ => false

/-- The entry of a `dict` under a key. -/
def dictLookup (entries : List (Scalar × Yaml)) (key : Scalar) : Option Yaml :=
  (entries.find? fun e => e.1.pyEq key).map (·.2)

mutual

/-- `==`. -/
def Yaml.pyEq : Yaml → Yaml → Bool
  | .scalar a, .scalar b => a.pyEq b
  | .list xs, .list ys => Yaml.pyEqItems xs ys
  | .map xs, .map ys => xs.length == ys.length && Yaml.pyEqEntries xs ys
  | _, _ => false

def Yaml.pyEqItems : List Yaml → List Yaml → Bool
  | [], [] => true
  | x :: xs, y :: ys => Yaml.pyEq x y && Yaml.pyEqItems xs ys
  | _, _ => false

def Yaml.pyEqEntries : List (Scalar × Yaml) → List (Scalar × Yaml) → Bool
  | [], _ => true
  | (k, v) :: rest, ys =>
    (match dictLookup ys k with
    | some w => Yaml.pyEq v w
    | none => false) && Yaml.pyEqEntries rest ys

end

/-- `bool(v)`. -/
def Yaml.truthy : Yaml → Bool
  | .scalar .null => false
  | .scalar (.bool b) => b
  | .scalar (.int n) => n ≠ 0
  | .scalar (.float (.finite _ digits _)) => digits ≠ 0
  | .scalar (.float _) => true
  | .scalar (.str s) => s ≠ ""
  | .scalar (.timestamp _ _) => true
  | .list items => !items.isEmpty
  | .map entries => !entries.isEmpty

-- ---------------------------------------------------------------------------
-- Type tests
-- ---------------------------------------------------------------------------

/-- `isinstance(v, int) and not isinstance(v, bool)`. -/
def Yaml.asInt? : Yaml → Option Int
  | .scalar (.int n) => some n
  | _ => none

/-- `isinstance(v, str)`. -/
def Yaml.asStr? : Yaml → Option String
  | .scalar (.str s) => some s
  | _ => none

/-- `isinstance(v, bool)`. -/
def Yaml.isBool : Yaml → Bool
  | .scalar (.bool _) => true
  | _ => false

/-- `isinstance(v, list)`. -/
def Yaml.asList? : Yaml → Option (List Yaml)
  | .list items => some items
  | _ => none

/-- `isinstance(v, dict)`. -/
def Yaml.asMap? : Yaml → Option (List (Scalar × Yaml))
  | .map entries => some entries
  | _ => none

@[simp] theorem Yaml.asInt?_eq_some {v : Yaml} {n : Int} : v.asInt? = some n ↔ v = .int n := by
  cases v with
  | scalar s => cases s <;> simp [asInt?]
  | _ => simp [asInt?]

@[simp] theorem Yaml.asStr?_eq_some {v : Yaml} {s : String} : v.asStr? = some s ↔ v = .str s := by
  cases v with
  | scalar s => cases s <;> simp [asStr?]
  | _ => simp [asStr?]

@[simp] theorem Yaml.asList?_eq_some {v : Yaml} {items : List Yaml} :
    v.asList? = some items ↔ v = .list items := by
  cases v <;> simp [asList?]

@[simp] theorem Yaml.asMap?_eq_some {v : Yaml} {entries : List (Scalar × Yaml)} :
    v.asMap? = some entries ↔ v = .map entries := by
  cases v <;> simp [asMap?]

-- ---------------------------------------------------------------------------
-- Dictionaries
-- ---------------------------------------------------------------------------

/-- The Python exceptions the generator can raise. -/
inductive PyError (ε : Type) where
  | attributeError
  | keyError (key : String)
  | typeError
  | valueError (message : String)
  /-- `sys.exit(1)` after the errors were printed. -/
  | systemExit (errors : List ε)
deriving DecidableEq

section

variable {ε : Type}

/-- What `str` raises on a value that is not printable. -/
def tooManyDigits : PyError ε :=
  .valueError ("Exceeds the limit (4300 digits) for integer string conversion; use " ++
    "sys.set_int_max_str_digits() to increase the limit")

/-- `str(v)`. -/
def strOf (v : Yaml) : Except (PyError ε) String :=
  if v.printable then .ok (pyStr v) else .error tooManyDigits

/-- A value used as a set element or a dictionary key. -/
def hashable : Yaml → Except (PyError ε) Scalar
  | .scalar s => .ok s
  | _ => .error .typeError

/-- `v.get(key)` of a value that may be no dictionary. -/
def pyGet? (v : Yaml) (key : String) : Except (PyError ε) (Option Yaml) :=
  match v with
  | .map entries => .ok (dictLookup entries (.str key))
  | _ => .error .attributeError

/-- `v[key]` with a string key. -/
def pyIndex (v : Yaml) (key : String) : Except (PyError ε) Yaml :=
  match v with
  | .map entries =>
    match dictLookup entries (.str key) with
    | some w => .ok w
    | none => .error (.keyError key)
  | _ => .error .typeError

end

/-- `key in d`. -/
def dictHas (entries : List (Scalar × Yaml)) (key : String) : Bool :=
  (dictLookup entries (.str key)).isSome

/-- `d.get(key, default)`. -/
def dictGetD (entries : List (Scalar × Yaml)) (key : String) (default : Yaml) : Yaml :=
  (dictLookup entries (.str key)).getD default

/-- `d.get(key)`. -/
def dictGet (entries : List (Scalar × Yaml)) (key : String) : Yaml :=
  dictGetD entries key .null

/-- `d[key] = value`. -/
def dictSet : List (Scalar × Yaml) → String → Yaml → List (Scalar × Yaml)
  | [], key, value => [(.str key, value)]
  | (k, v) :: rest, key, value =>
    if k.pyEq (.str key) then (k, value) :: rest else (k, v) :: dictSet rest key value

-- ---------------------------------------------------------------------------
-- Lookup lemmas
-- ---------------------------------------------------------------------------

@[simp] theorem Scalar.pyEq_str (k : Scalar) (s : String) :
    k.pyEq (.str s) = decide (k = .str s) := by
  cases k with
  | str a => simp [pyEq, Bool.beq_eq_decide_eq]
  | float x => cases x <;> simp [pyEq, number?]
  | _ => simp [pyEq, number?]

theorem dictLookup_cons (k : Scalar) (v : Yaml) (rest : List (Scalar × Yaml)) (key : String) :
    dictLookup ((k, v) :: rest) (.str key) =
      if k = .str key then some v else dictLookup rest (.str key) := by
  rw [dictLookup, List.find?_cons, Scalar.pyEq_str]
  by_cases hk : k = .str key <;> simp [hk, dictLookup]

theorem dictLookup_dictSet_self (d : List (Scalar × Yaml)) (key : String) (value : Yaml) :
    dictLookup (dictSet d key value) (.str key) = some value := by
  induction d with
  | nil => simp [dictSet, dictLookup_cons]
  | cons e rest ih =>
    obtain ⟨k, v⟩ := e
    rw [dictSet, Scalar.pyEq_str]
    by_cases hk : k = .str key <;> simp [hk, dictLookup_cons, ih]

theorem dictLookup_dictSet_ne (d : List (Scalar × Yaml)) {key other : String} (value : Yaml)
    (hne : other ≠ key) :
    dictLookup (dictSet d key value) (.str other) = dictLookup d (.str other) := by
  induction d with
  | nil =>
    rw [dictSet, dictLookup_cons, if_neg (by simpa using Ne.symm hne)]
  | cons e rest ih =>
    obtain ⟨k, v⟩ := e
    rw [dictSet, Scalar.pyEq_str]
    by_cases hk : k = .str key
    · have hother : k ≠ .str other := by
        rw [hk]
        simpa using Ne.symm hne
      simp [hk, dictLookup_cons, Ne.symm hne]
    · simp only [hk, decide_false, Bool.false_eq_true, if_false, dictLookup_cons, ih]

end AutoSerialBridge
