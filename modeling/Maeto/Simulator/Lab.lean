import Maeto.Foundation.GoMap
import Maeto.Foundation.PyFloat

/-!
# The lab of the simulator

A lab is the core links of a generated build: each link has two ends, an interface
inside a PoP's container, with the queueing disciplines the generator shaped it with.
-/

namespace Maeto.Simulator

open Foundation GoMap

inductive Qdisc
  | netem (delayMs : PyFloat) (jitterMs lossPct : Option PyFloat)
  | tbf (rateMbps : PyFloat) (burstKb : ℤ)
  deriving DecidableEq

structure Shape where
  commands : List Qdisc := []
  delayMs : ℚ := 0
  rateMbps : Option ℚ := none
  deriving DecidableEq

structure End where
  pop : String
  iface : String
  container : String
  shape : Shape
  deriving DecidableEq

def End.key (e : End) : String × String := (e.container, e.iface)

inductive Direction
  | both | ab | ba
  deriving DecidableEq

structure Link where
  id : String
  a : End
  b : End
  deriving DecidableEq

def Link.ends (link : Link) : Direction → List End
  | .ab => [link.a]
  | .ba => [link.b]
  | .both => [link.a, link.b]

theorem Link.mem_ends {link : Link} {direction : Direction} {e : End}
    (h : e ∈ link.ends direction) : e = link.a ∨ e = link.b := by
  cases direction with
  | both => simpa [Link.ends] using h
  | ab => exact Or.inl (by simpa [Link.ends] using h)
  | ba => exact Or.inr (by simpa [Link.ends] using h)

structure Lab where
  links : GoMap String Link
  pops : List String
  /-- A link is filed under its own id. -/
  links_id : ∀ id link, links.lookup id = some link → link.id = id

def partition (sep : Char) (text : List Char) : List Char × List Char :=
  (text.takeWhile (· ≠ sep), (text.dropWhile (· ≠ sep)).drop 1)

namespace Lab

def load (links : List Link) (pops : List String) : Lab where
  links := GoMap.collect Link.id links
  pops := pops
  links_id := fun _ _ h => (of_lookup_collect h).2

def all (lab : Lab) : List Link := (lab.links.range .listed).map Prod.snd

theorem mem_all {lab : Lab} {link : Link} :
    link ∈ lab.all ↔ lab.links.lookup link.id = some link := by
  unfold all
  rw [List.mem_map]
  constructor
  · rintro ⟨⟨id, link⟩, hmem, rfl⟩
    have hlookup := (mem_range _ _ _ _).mp hmem
    rwa [← lab.links_id id link hlookup] at hlookup
  · intro h
    exact ⟨(link.id, link), (mem_range _ _ _ _).mpr h, rfl⟩

def find (lab : Lab) (ref : String) : List Link :=
  let (pair, member) := partition '#' ref.toList
  let (a, b) := partition '-' pair
  let found := lab.all.filter fun link =>
    (link.a.pop.toList = a ∧ link.b.pop.toList = b) ∨
      (link.a.pop.toList = b ∧ link.b.pop.toList = a)
  if member = [] then found else found.filter fun link => member.isSuffixOf link.id.toList

theorem mem_all_of_mem_find {lab : Lab} {ref : String} {link : Link} (h : link ∈ lab.find ref) :
    link ∈ lab.all := by
  simp only [find] at h
  split_ifs at h
  · exact List.mem_of_mem_filter h
  · exact List.mem_of_mem_filter (List.mem_of_mem_filter h)

end Lab

end Maeto.Simulator
