import Maeto.Foundation.Bytes
import Maeto.Foundation.Result

/-!
# Records of a type, a length and a value

A record starts with an octet of flags, its type and the length of its value in two octets.
A region of such records is read by a loop with a cursor (`scan`), which checks that a
header and then a whole value are there, and hands the value over. Every byte string is a
concatenation of complete records, followed by bytes that are no complete record
(`exists_concat`), and the loop visits these records in order and succeeds when nothing is
left over (`scan_concat`).
-/

namespace Foundation

open Bytes

structure Tlv where
  flags : UInt8
  type : UInt8
  value : Bytes
  fits : value.length < 256 ^ 2

namespace Tlv

def bytes (t : Tlv) : Bytes := t.flags :: t.type :: (beBytes 2 t.value.length ++ t.value)

def concat (l : List Tlv) : Bytes := l.flatMap bytes

@[simp] theorem concat_nil : concat [] = [] := rfl

@[simp] theorem concat_cons (t : Tlv) (l : List Tlv) : concat (t :: l) = t.bytes ++ concat l := rfl

@[simp] theorem length_bytes (t : Tlv) : t.bytes.length = 4 + t.value.length := by
  simp [bytes]
  omega

theorem length_bytes_le_of_mem {t : Tlv} {l : List Tlv} (h : t ∈ l) :
    t.bytes.length ≤ (concat l).length :=
  (List.sublist_flatten_of_mem (List.mem_map_of_mem h)).length_le

structure Messages where
  truncated : String
  overrun : UInt8 → ℕ → ℕ → String

variable {σ : Type}

def scan (msgs : Messages) (visit : σ → UInt8 → Bytes → Except Fault σ) (b : Bytes) :
    ℕ → ℕ → σ → Except Fault σ
  | 0, _, _ => .error .unfinished
  | fuel + 1, cursor, acc =>
    if cursor < b.length then
      if b.length - cursor < 4 then .error (.returned msgs.truncated)
      else do
        let type ← index b (cursor + 1)
        let length := (← uint16 (← slice b (cursor + 2) (cursor + 4))).toNat
        if cursor + 4 + length > b.length then
          .error (.returned (msgs.overrun type length (b.length - cursor - 4)))
        else do
          let value ← slice b (cursor + 4) (cursor + 4 + length)
          let acc ← visit acc type value
          scan msgs visit b fuel (cursor + 4 + length) acc
    else .ok acc

def declared (b : Bytes) : ℕ := beNat ((b.drop 2).take 2)

def Incomplete (b : Bytes) : Prop := b.length < 4 + declared b

instance (b : Bytes) : Decidable (Incomplete b) :=
  inferInstanceAs (Decidable (b.length < 4 + declared b))

def rejection (msgs : Messages) (b : Bytes) : Fault :=
  if b.length < 4 then .returned msgs.truncated
  else .returned (msgs.overrun (b.getD 1 0) (declared b) (b.length - 4))

theorem incomplete_nil : Incomplete [] := Nat.lt_of_lt_of_le (by decide) (Nat.le_add_right 4 _)

theorem declared_lt (b : Bytes) : declared b < 2 ^ 16 := by
  have hlt := beNat_lt ((b.drop 2).take 2)
  have hle : 256 ^ ((b.drop 2).take 2).length ≤ 256 ^ 2 :=
    Nat.pow_le_pow_right (by decide) (List.length_take_le _ _)
  exact Nat.lt_of_lt_of_le hlt hle

section Head

theorem declared_append (t : Tlv) (rest : Bytes) : declared (t.bytes ++ rest) = t.value.length := by
  have hlength := beNat_beBytes 2 t.value.length
  rw [Nat.mod_eq_of_lt t.fits] at hlength
  rw [← hlength]
  rfl

theorem exists_bytes {b : Bytes} (h : ¬ Incomplete b) : ∃ t rest, b = bytes t ++ rest := by
  rw [Incomplete, Nat.not_lt] at h
  obtain ⟨flags, type, x, y, b, rfl⟩ : ∃ flags type x y b', b = flags :: type :: x :: y :: b' := by
    rcases b with _ | ⟨flags, _ | ⟨type, _ | ⟨x, _ | ⟨y, b⟩⟩⟩⟩
    · simp at h
    · simp [Nat.add_comm 4] at h
    · simp [Nat.add_comm 4] at h
    · simp [Nat.add_comm 4] at h
    · exact ⟨flags, type, x, y, b, rfl⟩
  generalize hlen : declared (flags :: type :: x :: y :: b) = n at h
  have hlength : beBytes 2 n = [x, y] := by
    rw [← hlen]
    exact beBytes_beNat [x, y]
  have hvalue : (b.take n).length = n := by
    rw [List.length_take]
    simp only [List.length_cons] at h
    omega
  refine ⟨⟨flags, type, b.take n, ?_⟩, b.drop n, ?_⟩
  · rw [hvalue, ← hlen]
    exact declared_lt _
  · simp [bytes, hvalue, hlength]

theorem exists_concat (b : Bytes) : ∃ l rest, b = concat l ++ rest ∧ Incomplete rest := by
  induction hn : b.length using Nat.strong_induction_on generalizing b with
  | _ n ih =>
    by_cases hb : Incomplete b
    · exact ⟨[], b, rfl, hb⟩
    · obtain ⟨t, rest, rfl⟩ := exists_bytes hb
      obtain ⟨l, rest', rfl, hrest⟩ := ih rest.length (by simp at hn; omega) rest rfl
      exact ⟨t :: l, rest', by simp, hrest⟩

end Head

section Scan

variable {msgs : Messages} {visit : σ → UInt8 → Bytes → Except Fault σ}

theorem scan_succ (pre : Bytes) {b : Bytes} (hb : b ≠ []) (fuel : ℕ) (acc : σ) :
    scan msgs visit (pre ++ b) (fuel + 1) pre.length acc =
      if Incomplete b then .error (rejection msgs b)
      else visit acc (b.getD 1 0) ((b.drop 4).take (declared b)) >>=
        scan msgs visit (pre ++ b) fuel (pre.length + (4 + declared b)) := by
  have hpos := List.length_pos_of_ne_nil hb
  have hremain : (pre ++ b).length - pre.length = b.length := by simp
  unfold scan
  rw [if_pos (by simpa using hpos), hremain]
  by_cases hheader : b.length < 4
  · have hincomplete : Incomplete b := Nat.lt_of_lt_of_le hheader (Nat.le_add_right 4 _)
    rw [if_pos hheader, if_pos hincomplete, rejection, if_pos hheader]
  · have htype : index (pre ++ b) (pre.length + 1) = .ok (b.getD 1 0) := by
      rw [index_append_right, index, List.getD_eq_getElem?_getD,
        List.getElem?_eq_getElem (by omega)]
      rfl
    have hlength : slice (pre ++ b) (pre.length + 2) (pre.length + 4) =
        .ok ((b.drop 2).take 2) := by
      rw [slice_append_right, slice_of_le (by decide) (by omega)]
    have hdeclared : (UInt16.ofNat (beNat ((b.drop 2).take 2))).toNat = declared b :=
      UInt16.toNat_ofNat_of_lt' (declared_lt b)
    rw [if_neg hheader, htype, hlength]
    simp only [bind, Except.bind, uint16_of_length (b := (b.drop 2).take 2) (by simp; omega),
      hdeclared]
    by_cases hshort : Incomplete b
    · have hlt : b.length < 4 + declared b := hshort
      rw [if_pos (by simp; omega), if_pos hshort, rejection, if_neg hheader]
    · have hle : 4 + declared b ≤ b.length := Nat.not_lt.mp hshort
      have hvalue : slice (pre ++ b) (pre.length + 4) (pre.length + 4 + declared b) =
          .ok ((b.drop 4).take (declared b)) := by
        rw [Nat.add_assoc, slice_append_right, slice_of_le (by omega) (by omega),
          Nat.add_sub_cancel_left]
      rw [if_neg (by simp; omega), if_neg hshort, hvalue]
      simp [Nat.add_assoc]

theorem scan_concat (pre : Bytes) (l : List Tlv) {rest : Bytes} (hrest : Incomplete rest)
    {fuel : ℕ} (hfuel : l.length < fuel) (acc : σ) :
    scan msgs visit (pre ++ (concat l ++ rest)) fuel pre.length acc =
      l.foldlM (fun acc t => visit acc t.type t.value) acc >>= fun acc =>
        if rest = [] then .ok acc else .error (rejection msgs rest) := by
  obtain ⟨fuel, rfl⟩ := Nat.exists_eq_succ_of_ne_zero (Nat.ne_zero_of_lt hfuel)
  induction l generalizing pre fuel acc with
  | nil =>
    rw [concat_nil, List.nil_append, List.foldlM_nil, pure_bind]
    by_cases hnil : rest = []
    · rw [hnil, if_pos rfl, scan, if_neg (by simp)]
    · rw [scan_succ pre hnil, if_pos hrest, if_neg hnil]
  | cons t l ih =>
    have hne : t.bytes ++ (concat l ++ rest) ≠ [] := by simp [bytes]
    have hvalue : ((t.bytes ++ (concat l ++ rest)).drop 4).take t.value.length = t.value :=
      List.take_left
    have hcomplete : ¬ Incomplete (t.bytes ++ (concat l ++ rest)) := by
      rw [Incomplete, declared_append, List.length_append, length_bytes]
      omega
    rw [List.length_cons] at hfuel
    obtain ⟨fuel, rfl⟩ := Nat.exists_eq_succ_of_ne_zero (n := fuel) (by omega)
    rw [concat_cons, List.append_assoc, scan_succ pre hne, if_neg hcomplete, declared_append,
      hvalue, List.foldlM_cons, bind_assoc]
    congr 1
    funext acc'
    have hpre : pre.length + (4 + t.value.length) = (pre ++ t.bytes).length := by simp
    rw [hpre, ← List.append_assoc]
    exact ih (pre ++ t.bytes) acc' fuel (Nat.lt_of_succ_lt_succ hfuel)

variable (msgs visit) in
def scanAll (b : Bytes) (acc : σ) : Except Fault σ := scan msgs visit b (b.length + 1) 0 acc

theorem scanAll_concat_append (l : List Tlv) {rest : Bytes} (hrest : Incomplete rest) (acc : σ) :
    scanAll msgs visit (concat l ++ rest) acc =
      l.foldlM (fun acc t => visit acc t.type t.value) acc >>= fun acc =>
        if rest = [] then .ok acc else .error (rejection msgs rest) := by
  have hlength : l.length ≤ (concat l).length := by
    induction l with
    | nil => exact Nat.zero_le _
    | cons t l ih =>
      rw [List.length_cons, concat_cons, List.length_append, length_bytes]
      omega
  refine scan_concat [] l hrest ?_ acc
  rw [List.length_append]
  omega

theorem scanAll_concat (l : List Tlv) (acc : σ) :
    scanAll msgs visit (concat l) acc = l.foldlM (fun acc t => visit acc t.type t.value) acc := by
  rw [← List.append_nil (concat l), scanAll_concat_append l incomplete_nil acc]
  exact bind_pure _

theorem scanAll_safe (hvisit : ∀ acc type value, Safe (visit acc type value)) (b : Bytes)
    (acc : σ) : Safe (scanAll msgs visit b acc) := by
  obtain ⟨l, rest, rfl, hrest⟩ := exists_concat b
  rw [scanAll_concat_append l hrest]
  refine (Safe.foldlM (fun acc t => hvisit acc _ _) l acc).bind fun acc' _ => ?_
  split_ifs
  · exact Safe.ok acc'
  · unfold rejection
    split_ifs
    · exact Safe.returned _
    · exact Safe.returned _

theorem of_scanAll_eq_ok {b : Bytes} {acc acc' : σ} (h : scanAll msgs visit b acc = .ok acc') :
    ∃ l, b = concat l ∧ l.foldlM (fun acc t => visit acc t.type t.value) acc = .ok acc' := by
  obtain ⟨l, rest, rfl, hrest⟩ := exists_concat b
  rw [scanAll_concat_append l hrest] at h
  obtain ⟨acc₁, hl, hend⟩ := Result.bind_eq_ok.mp h
  split_ifs at hend with hnil
  cases hend
  exact ⟨l, by rw [hnil, List.append_nil], hl⟩

theorem foldlM_isOk_iff {P : Tlv → Prop}
    (hvisit : ∀ acc (t : Tlv), (∃ acc', visit acc t.type t.value = .ok acc') ↔ P t)
    {l : List Tlv} {acc : σ} :
    (∃ acc', l.foldlM (fun acc t => visit acc t.type t.value) acc = .ok acc') ↔
      ∀ t ∈ l, P t := by
  induction l generalizing acc with
  | nil => exact iff_of_true ⟨acc, rfl⟩ (List.forall_mem_nil _)
  | cons t l ih =>
    simp only [List.foldlM_cons, Result.bind_eq_ok, List.forall_mem_cons]
    rw [exists_comm, ← hvisit acc t]
    constructor
    · rintro ⟨acc₁, acc', hstep, hrest⟩
      exact ⟨⟨acc₁, hstep⟩, ih.mp ⟨acc', hrest⟩⟩
    · rintro ⟨⟨acc₁, hstep⟩, hall⟩
      obtain ⟨acc', hrest⟩ := ih.mpr hall
      exact ⟨acc₁, acc', hstep, hrest⟩

theorem scanAll_isOk_iff {P : Tlv → Prop}
    (hvisit : ∀ acc (t : Tlv), (∃ acc', visit acc t.type t.value = .ok acc') ↔ P t) {b : Bytes}
    {acc : σ} :
    (∃ acc', scanAll msgs visit b acc = .ok acc') ↔ ∃ l, b = concat l ∧ ∀ t ∈ l, P t := by
  constructor
  · rintro ⟨acc', h⟩
    obtain ⟨l, rfl, hl⟩ := of_scanAll_eq_ok h
    exact ⟨l, rfl, (foldlM_isOk_iff hvisit).mp ⟨acc', hl⟩⟩
  · rintro ⟨l, rfl, hall⟩
    rw [scanAll_concat]
    exact (foldlM_isOk_iff hvisit).mpr hall

end Scan

section Switch

variable {β : Type}

def skip (acc : σ) (_ : UInt8) (_ : Bytes) : Except Fault σ := .ok acc

def onType (code : UInt8) (parse : Bytes → Except Fault β) (store : σ → β → σ)
    (next : σ → UInt8 → Bytes → Except Fault σ) (acc : σ) (type : UInt8) (value : Bytes) :
    Except Fault σ :=
  if type = code then do
    let x ← parse value
    .ok (store acc x)
  else next acc type value

variable {code : UInt8} {parse : Bytes → Except Fault β} {store : σ → β → σ}
  {next : σ → UInt8 → Bytes → Except Fault σ} {type : UInt8} {value : Bytes}

theorem onType_of_eq {acc : σ} {x : β} (htype : type = code) (hparse : parse value = .ok x) :
    onType code parse store next acc type value = .ok (store acc x) := by
  rw [onType, if_pos htype, hparse]
  rfl

theorem onType_of_ne {acc : σ} (htype : type ≠ code) :
    onType code parse store next acc type value = next acc type value :=
  if_neg htype

theorem skip_safe (acc : σ) (type : UInt8) (value : Bytes) : Safe (skip acc type value) :=
  Safe.ok acc

theorem onType_safe (hparse : ∀ value, Safe (parse value))
    (hnext : ∀ acc type value, Safe (next acc type value)) (acc : σ) (type : UInt8)
    (value : Bytes) : Safe (onType code parse store next acc type value) := by
  unfold onType
  split_ifs
  · exact (hparse value).bind fun _ _ => Safe.ok _
  · exact hnext acc type value

theorem skip_isOk_iff (acc : σ) (t : Tlv) :
    (∃ acc', skip acc t.type t.value = .ok acc') ↔ True :=
  iff_true_intro ⟨acc, rfl⟩

theorem onType_isOk_iff {P Q : Tlv → Prop} (hparse : ∀ t : Tlv, (∃ x, parse t.value = .ok x) ↔ P t)
    (hnext : ∀ acc (t : Tlv), (∃ acc', next acc t.type t.value = .ok acc') ↔ Q t)
    (acc : σ) (t : Tlv) :
    (∃ acc', onType code parse store next acc t.type t.value = .ok acc') ↔
      (t.type = code → P t) ∧ (t.type ≠ code → Q t) := by
  unfold onType
  split_ifs with htype
  · rw [Result.isOk_bind_ok, hparse]
    simp [htype]
  · rw [hnext acc t]
    simp [htype]

theorem onType_cases {acc acc' : σ} (h : onType code parse store next acc type value = .ok acc') :
    (type = code ∧ ∃ x, parse value = .ok x ∧ acc' = store acc x) ∨
      (type ≠ code ∧ next acc type value = .ok acc') := by
  unfold onType at h
  split_ifs at h with htype
  · obtain ⟨x, hx, hstore⟩ := Result.bind_eq_ok.mp h
    cases hstore
    exact Or.inl ⟨htype, x, hx, rfl⟩
  · exact Or.inr ⟨htype, h⟩

end Switch

section Last

def lastOf (type : UInt8) (l : List Tlv) : Option Tlv := l.reverse.find? fun t => t.type == type

theorem lastOf_cons (type : UInt8) (t : Tlv) (l : List Tlv) :
    lastOf type (t :: l) = (lastOf type l).or (if t.type = type then some t else none) := by
  unfold lastOf
  rw [List.reverse_cons, List.find?_append, List.find?_singleton]
  simp only [beq_iff_eq]

variable {l : List Tlv}

theorem of_lastOf_eq_some {type : UInt8} {t : Tlv} (h : lastOf type l = some t) :
    t ∈ l ∧ t.type = type :=
  ⟨List.mem_reverse.mp (List.mem_of_find?_eq_some h), by simpa using List.find?_some h⟩

variable {visit : σ → UInt8 → Bytes → Except Fault σ} {β : Type} {field : σ → Option β}
  {type : UInt8} {Reads : Tlv → β → Prop}

theorem field_foldlM (hvisit : ∀ acc (t : Tlv) acc', visit acc t.type t.value = .ok acc' →
      (t.type = type ∧ ∃ x, Reads t x ∧ field acc' = some x) ∨
        (t.type ≠ type ∧ field acc' = field acc))
    {acc acc' : σ}
    (h : l.foldlM (fun acc t => visit acc t.type t.value) acc = .ok acc') :
    (lastOf type l = none ∧ field acc' = field acc) ∨
      ∃ t x, lastOf type l = some t ∧ Reads t x ∧ field acc' = some x := by
  induction l generalizing acc with
  | nil =>
    cases h
    exact Or.inl ⟨rfl, rfl⟩
  | cons t l ih =>
    rw [List.foldlM_cons] at h
    obtain ⟨acc₁, hstep, hrest⟩ := Result.bind_eq_ok.mp h
    rw [lastOf_cons]
    rcases ih hrest with ⟨hlast, hfield⟩ | ⟨t', x, hlast, hx, hfield⟩
    · rw [hlast, Option.none_or]
      rcases hvisit acc t acc₁ hstep with ⟨htype, x, hx, hset⟩ | ⟨htype, hkept⟩
      · exact Or.inr ⟨t, x, if_pos htype, hx, hfield.trans hset⟩
      · exact Or.inl ⟨if_neg htype, hfield.trans hkept⟩
    · rw [hlast, Option.some_or]
      exact Or.inr ⟨t', x, rfl, hx, hfield⟩

theorem rel_foldlM (hvisit : ∀ acc (t : Tlv) acc', visit acc t.type t.value = .ok acc' →
      (t.type = type ∧ ∃ x, Reads t x ∧ field acc' = some x) ∨
        (t.type ≠ type ∧ field acc' = field acc))
    {acc acc' : σ} (hacc : field acc = none)
    (h : l.foldlM (fun acc t => visit acc t.type t.value) acc = .ok acc') :
    Option.Rel Reads (lastOf type l) (field acc') := by
  rcases field_foldlM hvisit h with ⟨hlast, hfield⟩ | ⟨t, x, hlast, hx, hfield⟩
  · rw [hlast, hfield, hacc]
    exact .none
  · rw [hlast, hfield]
    exact .some hx

theorem rel_mono {Reads' : Tlv → β → Prop} (hreads : ∀ t x, Reads t x → Reads' t x)
    {o : Option Tlv} {o' : Option β} (h : Option.Rel Reads o o') : Option.Rel Reads' o o' := by
  cases h with
  | some h => exact .some (hreads _ _ h)
  | none => exact .none

theorem exists_of_rel_lastOf {o : Option β} (h : Option.Rel Reads (lastOf type l) o)
    {x : β} (hx : o = some x) : ∃ t ∈ l, Reads t x := by
  subst hx
  generalize hlast : lastOf type l = last at h
  cases h with
  | some hreads => exact ⟨_, (of_lastOf_eq_some hlast).1, hreads⟩

end Last

end Tlv

end Foundation
