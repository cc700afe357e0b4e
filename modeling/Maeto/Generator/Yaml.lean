import Mathlib.Algebra.Order.Ring.Unbundled.Rat
import Mathlib.Algebra.Order.Ring.Rat
import Maeto.Foundation.GoMap

/-!
# The values of a topology file

A topology is read from a YAML document. Numbers are exact. The checks that the parser
makes of single values are here: each returns the value it stands for, or the error
with the place it names.
-/

namespace Maeto.Generator

open Foundation

inductive Yaml
  | null
  | bool (b : Bool)
  | int (n : ℤ)
  | float (q : ℚ)
  | str (s : String)
  | list (items : List Yaml)
  | map (entries : List (Yaml × Yaml))

abbrev Dict := List (Yaml × Yaml)

structure TopologyError where
  text : String
  value : Option Yaml := none

def fail {α : Type} (text : String) : Except TopologyError α := .error { text := text }

namespace Yaml

def isStr (s : String) : Yaml → Bool
  | .str t => t = s
  | _ => false

def asStr : Yaml → Option String
  | .str s => some s
  | _ => none

def truthy : Yaml → Bool
  | .null => false
  | .bool b => b
  | .int n => n ≠ 0
  | .float q => q ≠ 0
  | .str s => s ≠ ""
  | .list items => !items.isEmpty
  | .map entries => !entries.isEmpty

def number : Yaml → Option ℚ
  | .int n => some n
  | .float q => some q
  | _ => none

def numeric : Yaml → Option ℚ
  | .bool b => some (if b then 1 else 0)
  | .int n => some n
  | .float q => some q
  | _ => none

def len : Yaml → Option ℕ
  | .str s => some s.length
  | .list items => some items.length
  | .map entries => some entries.length
  | _ => none

mutual

def same : Yaml → Yaml → Bool
  | .null, .null => true
  | .str s, .str t => s = t
  | .list xs, .list ys => sameList xs ys
  | .map xs, .map ys => xs.length = ys.length && sameEntries xs ys
  | .bool b, y => y.numeric = some (if b then 1 else 0)
  | .int n, y => y.numeric = some (n : ℚ)
  | .float q, y => y.numeric = some q
  | _, _ => false

def sameList : List Yaml → List Yaml → Bool
  | [], [] => true
  | x :: xs, y :: ys => same x y && sameList xs ys
  | _, _ => false

def sameEntries : List (Yaml × Yaml) → List (Yaml × Yaml) → Bool
  | [], _ => true
  | (k, x) :: xs, ys => (ys.any fun e => same k e.1 && same x e.2) && sameEntries xs ys

end

def shown : Yaml → String
  | .null => "None"
  | .bool b => if b then "True" else "False"
  | .int n => toString n
  | .str s => s
  | _ => ""

end Yaml

namespace Dict

def get (d : Dict) (key : String) : Option Yaml :=
  (d.find? fun entry => entry.1.isStr key).map Prod.snd

def getTruthy (d : Dict) (key : String) : Option Yaml := (get d key).filter Yaml.truthy

end Dict

end Maeto.Generator
