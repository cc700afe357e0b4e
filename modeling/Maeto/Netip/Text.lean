import Maeto.Netip.Addr
import Mathlib.Data.List.TakeWhile

/-!
# The text of an address determines it

Two valid addresses with the same text are equal, and so are two valid prefixes.
An abbreviated IPv6 text is split at its `::`; the hextets before and after it
and their number give back the run of zeros between them (`text6_injective`).
Mapped addresses keep dots, which no other IPv6 text has.
-/

namespace Maeto.Netip

open Foundation.Text

namespace Addr

theorem isWord_hex (n : ℕ) : IsWord ':' (hex n) :=
  ⟨Nat.toDigits_ne_nil, notMem_toDigits (by decide) (by decide) n (by simp)⟩

theorem isWord_map_hex {l : List ℕ} : ∀ w ∈ l.map hex, IsWord ':' w := by
  intro w hw
  obtain ⟨n, -, rfl⟩ := List.mem_map.mp hw
  exact isWord_hex n

theorem map_hex_injective : Function.Injective (List.map hex) :=
  List.map_injective_iff.mpr (toDigits_injective (by decide) (by decide))

def IsRun (h : List ℕ) (s e : ℕ) : Prop := s < 8 ∧ e = s + zeroRun h s

theorem longestRun_isRun (h : List ℕ) (hne : (longestRun h).1 ≠ 255) :
    IsRun h (longestRun h).1 (longestRun h).2 := by
  have hfold : ∀ l : List ℕ, (∀ i ∈ l, i < 8) → ∀ best : ℕ × ℕ,
      (best.1 ≠ 255 → IsRun h best.1 best.2) →
      let best' := l.foldl
        (fun best i =>
          if 2 ≤ zeroRun h i ∧ best.2 - best.1 < zeroRun h i then (i, i + zeroRun h i) else best)
        best
      best'.1 ≠ 255 → IsRun h best'.1 best'.2 := by
    intro l
    induction l with
    | nil => exact fun _ best hbest => hbest
    | cons i l ih =>
      intro hl best hbest
      apply ih fun j hj => hl j (List.mem_cons_of_mem i hj)
      simp only
      split_ifs
      · exact fun _ => ⟨hl i List.mem_cons_self, rfl⟩
      · exact hbest
  exact hfold (List.range 8) (fun i hi => List.mem_range.mp hi) (255, 255)
    (fun hbest => absurd rfl hbest) hne

variable {h : List ℕ} {c : Char}

theorem IsRun.eq_append {s e : ℕ} (hrun : IsRun h s e) :
    h = h.take s ++ (List.replicate (e - s) 0 ++ h.drop e) := by
  obtain ⟨-, rfl⟩ := hrun
  have hzeros : (h.drop s).takeWhile (fun x => x == 0) = List.replicate (zeroRun h s) 0 := by
    rw [List.eq_replicate_iff]
    refine ⟨rfl, fun x hx => ?_⟩
    simpa using List.mem_takeWhile_imp hx
  have hrest : h.drop (s + zeroRun h s) = (h.drop s).dropWhile fun x => x == 0 := by
    rw [← List.drop_drop]
    have happend := List.takeWhile_append_dropWhile (p := fun x => x == 0) (l := h.drop s)
    conv_lhs => rw [← happend]
    exact List.drop_left
  rw [Nat.add_sub_cancel_left, hrest, ← hzeros, List.takeWhile_append_dropWhile,
    List.take_append_drop]

theorem IsRun.le_length {s e : ℕ} (hrun : IsRun h s e) (hlen : h.length = 8) :
    s ≤ e ∧ e ≤ 8 := by
  obtain ⟨hs, rfl⟩ := hrun
  have hle : zeroRun h s ≤ (h.drop s).length := (List.takeWhile_sublist _).length_le
  rw [List.length_drop, hlen] at hle
  omega

theorem text6_injective {h' : List ℕ} (hlen : h.length = 8) (hlen' : h'.length = 8)
    (heq : text6 h = text6 h') : h = h' := by
  unfold text6 at heq
  split_ifs at heq with hrun hrun' hrun'
  · exact map_hex_injective (joined_injective isWord_map_hex isWord_map_hex heq)
  · exact absurd heq (joined_ne_sep_sep isWord_map_hex isWord_map_hex _)
  · exact absurd heq.symm (joined_ne_sep_sep isWord_map_hex isWord_map_hex _)
  · have hr := longestRun_isRun h hrun
    have hr' := longestRun_isRun h' hrun'
    generalize (longestRun h).1 = s, (longestRun h).2 = e, (longestRun h').1 = s',
      (longestRun h').2 = e' at heq hr hr'
    obtain ⟨hbefore, hafter⟩ := joined_sep_sep_inj isWord_map_hex isWord_map_hex heq
    have htake := map_hex_injective hbefore
    have hdrop := map_hex_injective (joined_injective isWord_map_hex isWord_map_hex hafter)
    obtain ⟨hse, he⟩ := hr.le_length hlen
    obtain ⟨hse', he'⟩ := hr'.le_length hlen'
    have hs : s = s' := by
      have := congrArg List.length htake
      rw [List.length_take, List.length_take] at this
      omega
    have hee : e = e' := by
      have := congrArg List.length hdrop
      rw [List.length_drop, List.length_drop] at this
      omega
    rw [hr.eq_append, hr'.eq_append, htake, hdrop, hs, hee]

theorem hextets_length (a : BitVec 128) : (hextets a).length = 8 := by
  simp [hextets]

theorem hextets_injective : Function.Injective hextets := by
  intro a b h
  apply BitVec.eq_of_toNat_eq
  apply eq_of_chunks (w := 16) (n := 8) (by decide) a.isLt b.isLt
  intro i hi
  have hmap := List.map_inj_left.mp h (7 - i) (List.mem_range.mpr (by omega))
  simpa [hextet, show 7 - (7 - i) = i by omega] using hmap

theorem isWord_octet (n : ℕ) : IsWord '.' (Nat.toDigits 10 n) :=
  ⟨Nat.toDigits_ne_nil, notMem_toDigits (by decide) (by decide) n (by simp)⟩

theorem isWord_octets (a : BitVec 32) :
    ∀ w ∈ (List.range 4).map fun i => Nat.toDigits 10 (octet a i), IsWord '.' w := by
  intro w hw
  obtain ⟨i, -, rfl⟩ := List.mem_map.mp hw
  exact isWord_octet _

theorem eq_of_octets {a b : BitVec 32}
    (h : ((List.range 4).map fun i => Nat.toDigits 10 (octet a i)) =
      (List.range 4).map fun i => Nat.toDigits 10 (octet b i)) : a = b := by
  apply BitVec.eq_of_toNat_eq
  apply eq_of_chunks (w := 8) (n := 4) (by decide) a.isLt b.isLt
  intro i hi
  have hoctet := toDigits_injective (by decide) (by decide)
    (List.map_inj_left.mp h (3 - i) (List.mem_range.mpr (by omega)))
  simpa [octet, show 3 - (3 - i) = i by omega] using hoctet

theorem text4_injective : Function.Injective text4 := fun a b h =>
  eq_of_octets (joined_injective (isWord_octets a) (isWord_octets b) h)

theorem text4_append_inj {a b : BitVec 32} {x y : List Char}
    (h : text4 a ++ '.' :: x = text4 b ++ '.' :: y) : a = b ∧ x = y := by
  obtain ⟨hoctets, hxy⟩ := joined_append_inj (isWord_octets a) (isWord_octets b)
    (by simp) (by simp) h
  exact ⟨eq_of_octets hoctets, hxy⟩

theorem notMem_text4 (a : BitVec 32) (hc : c = ':' ∨ c = '/' ∨ c = ' ') :
    c ∉ text4 a := by
  intro hmem
  rcases mem_joined hmem with rfl | ⟨w, hw, hcw⟩
  · rcases hc with h | h | h <;> exact absurd h (by decide)
  · obtain ⟨i, -, rfl⟩ := List.mem_map.mp hw
    refine notMem_toDigits (by decide) (by decide) _ ?_ hcw
    rcases hc with rfl | rfl | rfl <;> simp

theorem dot_mem_text4 (a : BitVec 32) : '.' ∈ text4 a := by
  simp [text4, List.range_succ, joined]

theorem notMem_joined_hex (l : List ℕ) (hc : c = '.' ∨ c = '/' ∨ c = ' ') :
    c ∉ joined ':' (l.map hex) := by
  intro hmem
  rcases mem_joined hmem with rfl | ⟨w, hw, hcw⟩
  · rcases hc with h | h | h <;> exact absurd h (by decide)
  · obtain ⟨n, -, rfl⟩ := List.mem_map.mp hw
    refine notMem_toDigits (by decide) (by decide) n ?_ hcw
    rcases hc with rfl | rfl | rfl <;> simp

theorem notMem_text6 (h : List ℕ) (hc : c = '.' ∨ c = '/' ∨ c = ' ') :
    c ∉ text6 h := by
  have hcolon : c ≠ ':' := by rcases hc with rfl | rfl | rfl <;> decide
  unfold text6 abbreviated
  split_ifs
  · exact notMem_joined_hex h hc
  · simp only [List.mem_append, List.mem_cons, hcolon, false_or, not_or]
    exact ⟨notMem_joined_hex _ hc, notMem_joined_hex _ hc⟩

theorem colon_mem_text6 (hlen : h.length = 8) : ':' ∈ text6 h := by
  unfold text6 abbreviated
  split_ifs
  · match h, hlen with
    | x :: y :: rest, _ => simp
  · simp

theorem text_v6 (a : BitVec 128) : (v6 a).text =
    if is4In6 a then "::ffff:".toList ++ text4 (a.setWidth 32) else text6 (hextets a) := rfl

theorem notMem_text {a : Addr} (ha : a.isValid) (hc : c = '/' ∨ c = ' ') :
    c ∉ a.text := by
  cases a with
  | invalid => cases ha
  | v4 a => exact notMem_text4 a (Or.inr hc)
  | v6 a =>
    rw [text_v6]
    split_ifs
    · rw [List.mem_append, not_or]
      refine ⟨?_, notMem_text4 _ (Or.inr hc)⟩
      rcases hc with rfl | rfl <;> decide
    · exact notMem_text6 _ (Or.inr hc)

theorem mapped_injective {a b : BitVec 128} (ha : is4In6 a) (hb : is4In6 b)
    (h : a.setWidth 32 = b.setWidth 32) : a = b := by
  simp only [is4In6, beq_iff_eq, Nat.shiftRight_eq_div_pow] at ha hb
  have hlow := congrArg BitVec.toNat h
  simp only [BitVec.toNat_setWidth] at hlow
  apply BitVec.eq_of_toNat_eq
  omega

theorem text_injective : Function.Injective text := by
  have hspace : ∀ a : Addr, a.isValid → a.text ≠ invalid.text := fun a ha h =>
    notMem_text ha (c := ' ') (Or.inr rfl) (h ▸ by decide)
  have hcolon : ∀ (a : BitVec 32) (b : BitVec 128), (v4 a).text ≠ (v6 b).text := by
    intro a b h
    have hb : ':' ∈ (v6 b).text := by
      rw [text_v6]
      split_ifs
      · exact List.mem_append_left _ (by decide)
      · exact colon_mem_text6 (hextets_length b)
    rw [← h] at hb
    exact notMem_text4 a (Or.inl rfl) hb
  intro a b h
  cases a with
  | invalid =>
    cases b with
    | invalid => rfl
    | v4 b => exact absurd h.symm (hspace _ rfl)
    | v6 b => exact absurd h.symm (hspace _ rfl)
  | v4 a =>
    cases b with
    | invalid => exact absurd h (hspace _ rfl)
    | v4 b => rw [text4_injective h]
    | v6 b => exact absurd h (hcolon a b)
  | v6 a =>
    cases b with
    | invalid => exact absurd h (hspace _ rfl)
    | v4 b => exact absurd h.symm (hcolon b a)
    | v6 b =>
      have hdot : ∀ (x : List ℕ) (y : BitVec 32), text6 x ≠ "::ffff:".toList ++ text4 y :=
        fun x y heq => notMem_text6 x (c := '.') (Or.inl rfl)
          (heq ▸ List.mem_append_right _ (dot_mem_text4 y))
      rw [text_v6, text_v6] at h
      split_ifs at h with ha hb hb
      · rw [mapped_injective ha hb (text4_injective (List.append_cancel_left h))]
      · exact absurd h.symm (hdot _ _)
      · exact absurd h (hdot _ _)
      · rw [hextets_injective (text6_injective (hextets_length a) (hextets_length b) h)]

theorem dot_notMem_text {a : Addr} (h4 : ∀ x, a ≠ v4 x) (h6 : ∀ x, a = v6 x → ¬ is4In6 x) :
    '.' ∉ a.text := by
  cases a with
  | invalid => decide
  | v4 a => exact absurd rfl (h4 a)
  | v6 a =>
    rw [text_v6, if_neg (h6 a rfl)]
    exact notMem_text6 _ (Or.inl rfl)

theorem text4_append_ne {a : BitVec 32} {b : Addr} (hb : ∀ x, b ≠ v4 x)
    (hb6 : ∀ x, b = v6 x → ¬ is4In6 x) (x y : List Char) :
    text4 a ++ '.' :: x ≠ b.text ++ '.' :: y := by
  intro h
  have hsplit : text4 a = Nat.toDigits 10 (octet a 0) ++
      '.' :: joined '.' (([1, 2, 3] : List ℕ).map fun i => Nat.toDigits 10 (octet a i)) := rfl
  rw [hsplit, List.append_assoc, List.cons_append,
    append_sep_inj (isWord_octet _).2 (dot_notMem_text hb hb6)] at h
  have hdigits : ∀ {c : Char}, c = ':' ∨ c = ' ' → c ∉ b.text := by
    intro c hc
    rw [← h.1]
    refine notMem_toDigits (by decide) (by decide) _ ?_
    rcases hc with rfl | rfl <;> simp
  cases b with
  | invalid => exact hdigits (Or.inr rfl) (by decide)
  | v4 b => exact hb b rfl
  | v6 b =>
    refine hdigits (Or.inl rfl) ?_
    rw [text_v6, if_neg (hb6 b rfl)]
    exact colon_mem_text6 (hextets_length b)

theorem text_append_inj {a b : Addr} (ha : ∀ x, a = v6 x → ¬ is4In6 x)
    (hb : ∀ x, b = v6 x → ¬ is4In6 x) {x y : List Char}
    (h : a.text ++ '.' :: x = b.text ++ '.' :: y) : a = b ∧ x = y := by
  by_cases ha4 : ∃ z, a = v4 z
  · obtain ⟨z, rfl⟩ := ha4
    by_cases hb4 : ∃ z, b = v4 z
    · obtain ⟨z', rfl⟩ := hb4
      obtain ⟨rfl, hxy⟩ := text4_append_inj h
      exact ⟨rfl, hxy⟩
    · exact absurd h (text4_append_ne (fun z hz => hb4 ⟨z, hz⟩) hb x y)
  · by_cases hb4 : ∃ z, b = v4 z
    · obtain ⟨z, rfl⟩ := hb4
      exact absurd h.symm (text4_append_ne (fun z hz => ha4 ⟨z, hz⟩) ha y x)
    · rw [append_sep_inj (dot_notMem_text (fun z hz => ha4 ⟨z, hz⟩) ha)
        (dot_notMem_text (fun z hz => hb4 ⟨z, hz⟩) hb)] at h
      exact ⟨text_injective h.1, h.2⟩

theorem text_ne_nil (a : Addr) : a.text ≠ [] := by
  cases a with
  | invalid => decide
  | v4 a => exact List.ne_nil_of_mem (dot_mem_text4 a)
  | v6 a =>
    rw [text_v6]
    split_ifs
    · exact List.append_ne_nil_of_left_ne_nil (by decide) _
    · exact List.ne_nil_of_mem (colon_mem_text6 (hextets_length a))

def endsInRun : Addr → Bool
  | v6 a => !is4In6 a && ((longestRun (hextets a)).1 != 255 && (longestRun (hextets a)).2 == 8)
  | _ => false

theorem text_of_endsInRun {a : Addr} (h : a.endsInRun = true) :
    ∃ ws, (∀ w ∈ ws, IsWord ':' w) ∧ a.text = joined ':' ws ++ [':', ':'] := by
  cases a with
  | invalid => cases h
  | v4 a => cases h
  | v6 a =>
    rw [endsInRun, Bool.and_eq_true, Bool.and_eq_true, Bool.not_eq_true', bne_iff_ne,
      beq_iff_eq] at h
    obtain ⟨hmapped, hne, hrun⟩ := h
    refine ⟨((hextets a).take (longestRun (hextets a)).1).map hex, isWord_map_hex, ?_⟩
    rw [text_v6, hmapped, if_neg (by decide), text6, if_neg hne, abbreviated, hrun,
      List.drop_eq_nil_of_le (hextets_length a).le]
    rfl

theorem eq_of_text_prefix {a b : Addr} (ha : a.endsInRun = true) (hb : b.endsInRun = true)
    (h : a.text <+: b.text) : a = b := by
  obtain ⟨ws, hws, hta⟩ := text_of_endsInRun ha
  obtain ⟨ws', hws', htb⟩ := text_of_endsInRun hb
  obtain ⟨rest, hrest⟩ := h
  rw [hta, htb, List.append_assoc] at hrest
  obtain ⟨rfl, -⟩ := joined_sep_sep_inj hws hws' hrest
  exact text_injective (hta.trans htb.symm)

end Addr

namespace Prefix

theorem text_append_inj {p q : Prefix} (hp : p.isValid) {a b : List Char}
    (h : p.text ++ '.' :: a = q.text ++ '.' :: b) : p = q ∧ a = b := by
  have hslash : ∀ r : Prefix, ∀ n ∈ r.bits, '/' ∉ r.ip.text := fun r n hn =>
    Addr.notMem_text (r.bits_le n hn).1 (Or.inl rfl)
  have hdot : ∀ n : ℕ, '.' ∉ Nat.toDigits 10 n := fun n =>
    notMem_toDigits (by decide) (by decide) n (Or.inl rfl)
  obtain ⟨ip, bits, hbits⟩ := p
  obtain ⟨ip', bits', hbits'⟩ := q
  cases bits with
  | none => cases hp
  | some n =>
    simp only [text, List.append_assoc, List.cons_append] at h
    cases bits' with
    | none =>
      have hspace : ' ' ∉ ip.text := Addr.notMem_text (hbits n rfl).1 (Or.inr rfl)
      have hinvalid : "invalid Prefix".toList ++ '.' :: b =
          "invalid".toList ++ ' ' :: ("Prefix".toList ++ '.' :: b) := rfl
      rw [hinvalid] at h
      exact absurd h (append_sep_ne (by decide) hspace (by decide) _ _)
    | some n' =>
      simp only [List.append_assoc, List.cons_append] at h
      obtain ⟨hip, hrest⟩ := (append_sep_inj (hslash ⟨ip, some n, hbits⟩ n rfl)
        (hslash ⟨ip', some n', hbits'⟩ n' rfl)).mp h
      obtain ⟨hn, hab⟩ := (append_sep_inj (hdot n) (hdot n')).mp hrest
      have hip' := Addr.text_injective hip
      have hn' := toDigits_injective (by decide) (by decide) hn
      subst hip' hn'
      exact ⟨rfl, hab⟩

theorem text_injective {p q : Prefix} (hp : p.isValid) (h : p.text = q.text) : p = q :=
  (text_append_inj hp (a := []) (b := []) (by rw [h])).1

end Prefix

end Maeto.Netip
