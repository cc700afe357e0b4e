import Maeto.Netip.Text

/-!
# Resources and their keys

Intents and the state of the kernel are both turned into resources, and the two
sets are compared by the keys of the resources alone. A key is a text made of
some of the fields of the resource: it can be read back as far as these fields
go, which the lemmas of the second half say kind by kind, and it says nothing
about the others.

The fields of an SR route are its table, its prefix and the texts of its
segments one after the other, without a mark between them.
-/

namespace Maeto.Dataplane

open Foundation Netip

inductive Kind where
  | vrf
  | rule
  | xfrm
  | route
  | sid
  | srRoute
  | classification
  deriving DecidableEq, Repr

def Kind.text : Kind → String
  | vrf => "vrf"
  | rule => "rule"
  | xfrm => "xfrm"
  | route => "route"
  | sid => "sid"
  | srRoute => "sr_route"
  | classification => "classification"

inductive EncapType where
  | dt46
  | b6
  | dt4
  | dt6
  | endSID
  | endX
  deriving DecidableEq, Repr

def EncapType.text : EncapType → String
  | dt46 => "dt46"
  | b6 => "b6"
  | dt4 => "dt4"
  | dt6 => "dt6"
  | endSID => "end"
  | endX => "endX"

theorem EncapType.dot_notMem_text (e : EncapType) : '.' ∉ e.text.toList := by
  cases e <;> decide

theorem EncapType.text_injective {e e' : EncapType} (h : e.text.toList = e'.text.toList) :
    e = e' := by
  have hall : ∀ e e' : EncapType, e.text.toList = e'.text.toList → e = e' := by
    intro e e'
    cases e <;> cases e' <;> decide
  exact hall e e' h

structure VRF where
  name : String
  tableID : UInt32
  index : ℤ
  deriving DecidableEq

structure XFRM where
  name : String
  ifID : UInt32
  parent : String
  masterVRF : String
  index : ℤ
  deriving DecidableEq

structure Route where
  table : ℤ
  dst : Prefix
  dev : String
  via : Addr
  metric : ℤ
  deriving DecidableEq

@[ext] structure Rule where
  priority : ℤ
  src : Option Prefix
  table : ℤ
  mark : ℤ
  iif : String
  deriving DecidableEq

structure SID where
  sidType : EncapType
  sid : Addr
  tableID : ℤ
  metric : ℤ
  vrfTableID : ℤ
  deriving DecidableEq

structure SRRoute where
  routePrefix : Prefix
  segments : List Addr
  table : ℤ
  color : UInt64
  deriving DecidableEq

structure Classification where
  classifier : UInt32
  mark : UInt32
  deriving DecidableEq

inductive Resource where
  | vrf (v : VRF)
  | xfrm (x : XFRM)
  | route (r : Route)
  | rule (r : Rule)
  | sid (s : SID)
  | srRoute (s : SRRoute)
  | classification (c : Classification)
  deriving DecidableEq

namespace Resource

def kind : Resource → Kind
  | vrf _ => .vrf
  | xfrm _ => .xfrm
  | route _ => .route
  | rule _ => .rule
  | sid _ => .sid
  | srRoute _ => .srRoute
  | classification _ => .classification

def linkName : Resource → Option String
  | .vrf v => some v.name
  | .xfrm x => some x.name
  | _ => none

def keyBody : Resource → List Char
  | vrf v => v.name.toList
  | xfrm x => x.name.toList ++ '.' :: Text.decimal x.ifID.toNat
  | route r => Text.decimal r.table ++ '.' :: (r.dst.text ++ '.' :: r.dev.toList)
  | rule r =>
    (Text.decimal r.priority ++ '.' ::
      ((r.src.elim [] Prefix.text) ++ '.' :: Text.decimal r.table)) ++ '.' :: Text.decimal r.mark
  | sid s =>
    (s.sidType.text.toList ++ '.' :: s.sid.text) ++ '.' :: Text.decimal s.vrfTableID
  | srRoute s =>
    Text.decimal s.table ++ '.' :: (s.routePrefix.text ++ '.' :: s.segments.flatMap Addr.text)
  | classification c =>
    Text.decimal c.classifier.toNat ++ '.' :: Text.decimal c.mark.toNat

def key (r : Resource) : String :=
  String.ofList (r.kind.text.toList ++ ':' :: r.keyBody)

/-- Resources with the same key are of the same kind and have the same fields in
the key. -/
theorem key_eq_iff {r r' : Resource} :
    r.key = r'.key ↔ r.kind = r'.kind ∧ r.keyBody = r'.keyBody := by
  have hkind : ∀ k : Kind, ':' ∉ k.text.toList := by
    intro k
    cases k <;> decide
  have hinj : ∀ k k' : Kind, k.text.toList = k'.text.toList → k = k' := by
    intro k k'
    cases k <;> cases k' <;> decide
  rw [key, key, String.ofList_inj, Text.append_sep_inj (hkind _) (hkind _)]
  constructor
  · rintro ⟨hk, hbody⟩
    exact ⟨hinj _ _ hk, hbody⟩
  · rintro ⟨hk, hbody⟩
    exact ⟨by rw [hk], hbody⟩

section Fields

theorem keyBody_vrf {v w : VRF} (h : (vrf v).keyBody = (vrf w).keyBody) : v.name = w.name :=
  String.toList_injective h

theorem keyBody_xfrm {x y : XFRM} (h : (xfrm x).keyBody = (xfrm y).keyBody) :
    x.name = y.name ∧ x.ifID = y.ifID := by
  obtain ⟨hname, hid⟩ := Text.of_dot_decimal h
  exact ⟨String.toList_injective hname, UInt32.toNat_inj.mp (by omega)⟩

theorem table_prefix_inj {t t' : ℤ} {p q : Prefix} (hp : p.isValid) {a b : List Char}
    (h : Text.decimal t ++ '.' :: (p.text ++ '.' :: a) =
      Text.decimal t' ++ '.' :: (q.text ++ '.' :: b)) : t = t' ∧ p = q ∧ a = b := by
  obtain ⟨ht, hrest⟩ := Text.of_decimal_dot h
  exact ⟨ht, Prefix.text_append_inj hp hrest⟩

theorem keyBody_route {r r' : Route} (hr : r.dst.isValid)
    (h : (route r).keyBody = (route r').keyBody) :
    r.table = r'.table ∧ r.dst = r'.dst ∧ r.dev = r'.dev := by
  obtain ⟨ht, hdst, hdev⟩ := table_prefix_inj hr h
  exact ⟨ht, hdst, String.toList_injective hdev⟩

theorem keyBody_srRoute {s s' : SRRoute} (hs : s.routePrefix.isValid)
    (h : (srRoute s).keyBody = (srRoute s').keyBody) :
    s.table = s'.table ∧ s.routePrefix = s'.routePrefix ∧
      s.segments.flatMap Addr.text = s'.segments.flatMap Addr.text :=
  table_prefix_inj hs h

theorem src_text_injective {p q : Option Prefix} (hp : ∀ x ∈ p, x.isValid)
    (h : p.elim [] Prefix.text = q.elim [] Prefix.text) : p = q := by
  have hne : ∀ x : Prefix, x.text ≠ [] := by
    intro x
    unfold Prefix.text
    split <;> simp
  cases p with
  | none =>
    cases q with
    | none => rfl
    | some y => exact absurd h.symm (hne y)
  | some x =>
    cases q with
    | none => exact absurd h (hne x)
    | some y => rw [Prefix.text_injective (hp x rfl) h]

theorem keyBody_rule {r r' : Rule} (hr : ∀ x ∈ r.src, x.isValid)
    (h : (rule r).keyBody = (rule r').keyBody) :
    r.priority = r'.priority ∧ r.src = r'.src ∧ r.table = r'.table ∧ r.mark = r'.mark := by
  obtain ⟨hinit, hmark⟩ := Text.of_dot_decimal h
  obtain ⟨hpriority, hrest⟩ := Text.of_decimal_dot hinit
  obtain ⟨hsrc, htable⟩ := Text.of_dot_decimal hrest
  exact ⟨hpriority, src_text_injective hr hsrc, htable, hmark⟩

theorem keyBody_sid {s s' : SID} (h : (sid s).keyBody = (sid s').keyBody) :
    s.sidType = s'.sidType ∧ s.sid = s'.sid ∧ s.vrfTableID = s'.vrfTableID := by
  obtain ⟨hinit, htable⟩ := Text.of_dot_decimal h
  obtain ⟨hsidType, hsid⟩ := (Text.append_sep_inj s.sidType.dot_notMem_text
    s'.sidType.dot_notMem_text).mp hinit
  exact ⟨EncapType.text_injective hsidType, Addr.text_injective hsid, htable⟩

theorem keyBody_classification {c c' : Classification}
    (h : (classification c).keyBody = (classification c').keyBody) : c = c' := by
  obtain ⟨h₁, hmark⟩ := Text.of_decimal_dot h
  have h₂ := Text.decimal_injective hmark
  obtain ⟨classifier, mark⟩ := c
  obtain ⟨classifier', mark'⟩ := c'
  have h₁' : classifier = classifier' := UInt32.toNat_inj.mp (by simpa using h₁)
  have h₂' : mark = mark' := UInt32.toNat_inj.mp (by simpa using h₂)
  rw [h₁', h₂']

end Fields

end Resource

end Maeto.Dataplane
