import ChipEight.Proofs.Shape
import Mathlib.Data.List.Nodup

namespace ChipEight

namespace Opcode

section

variable {α : Type} {p : α → Bool} {xs ys : List α} {a b : α}

theorem sublist_of_find? (h : xs.find? p = some a) (hb : b ∈ xs) (hpb : p b = true) (hab : a ≠ b) :
    [a, b].Sublist xs := by
  obtain ⟨-, before, after, rfl, hbefore⟩ := List.find?_eq_some_iff_append.mp h
  have hafter : b ∈ after := by
    rcases List.mem_append.mp hb with hb | hb
    · have hn := hbefore b hb
      rw [hpb] at hn
      cases hn
    · exact (List.mem_cons.mp hb).resolve_left hab.symm
  have htail : [a, b].Sublist (a :: after) := (List.singleton_sublist.mpr hafter).cons_cons a
  exact htail.trans (List.sublist_append_right before (a :: after))

theorem not_sublist_swap (hn : xs.Nodup) (h : [a, b].Sublist xs) : ¬ [b, a].Sublist xs := by
  induction hn with
  | nil => cases h
  | cons hx hn ih =>
    intro h'
    cases h with
    | cons _ h =>
      cases h' with
      | cons _ h' => exact ih h h'
      | cons_cons _ h' => exact hx _ (h.subset (List.mem_cons_of_mem a List.mem_cons_self)) rfl
    | cons_cons _ h =>
      cases h' with
      | cons _ h' => exact hx _ (h'.subset (List.mem_cons_of_mem b List.mem_cons_self)) rfl
      | cons_cons _ h' => exact hx _ (List.singleton_sublist.mp h) rfl

theorem find?_eq_of_perm (hperm : xs.Perm ys) (hn : ys.Nodup)
    (hkeeps : ∀ a b, p a = true → p b = true → [a, b].Sublist xs → [a, b].Sublist ys) :
    xs.find? p = ys.find? p := by
  cases hy : ys.find? p with
  | none =>
    rw [List.find?_eq_none] at hy ⊢
    exact fun a ha => hy a (hperm.mem_iff.mp ha)
  | some b =>
    have hb : b ∈ xs := hperm.mem_iff.mpr (List.mem_of_find?_eq_some hy)
    have hpb := List.find?_some hy
    cases hx : xs.find? p with
    | none => exact absurd hpb (List.find?_eq_none.mp hx b hb)
    | some a =>
      have hpa := List.find?_some hx
      by_cases hab : a = b
      · rw [hab]
      · have hays : a ∈ ys := hperm.mem_iff.mp (List.mem_of_find?_eq_some hx)
        -- each of the two would have been found in front of the other
        have hkept := hkeeps a b hpa hpb (sublist_of_find? hx hb hpb hab)
        exact absurd hkept (not_sublist_swap hn (sublist_of_find? hy hays hpa (Ne.symm hab)))

end

def Precedes (rows : List Row) (o p : Opcode) : Prop := [o, p].Sublist (rows.map Row.opcode)

instance (rows : List Row) (o p : Opcode) : Decidable (Precedes rows o p) :=
  inferInstanceAs (Decidable ([o, p].Sublist (rows.map Row.opcode)))

variable {rows : List Row} {r s : Row} {w : UInt16}

theorem nodup_opcodes : (table.map Row.opcode).Nodup := by decide

theorem nodup_table : table.Nodup := nodup_opcodes.of_map Row.opcode

theorem nodup_opcodes_of_perm (h : rows.Perm table) : (rows.map Row.opcode).Nodup :=
  (h.map Row.opcode).nodup_iff.mpr nodup_opcodes

theorem eq_of_opcode_eq (hr : r ∈ table) (hs : s ∈ table) (h : r.opcode = s.opcode) : r = s :=
  List.inj_on_of_nodup_map nodup_opcodes hr hs h

/-- The only rows that cover a word together are that of 0nnn and those of the two words that fit
it but have operations of their own. -/
theorem opcodes_of_covers (hr : r ∈ table) (hs : s ∈ table) (hrs : r ≠ s)
    (hrw : r.covers w = true) (hsw : s.covers w = true) :
    r.opcode = sys ∧ (s.opcode = cls ∨ s.opcode = ret) ∨
      s.opcode = sys ∧ (r.opcode = cls ∨ r.opcode = ret) := by
  have hrfits := ((agrees_of_mem_table r hr).covers_iff w).mp hrw
  have hsfits := ((agrees_of_mem_table s hs).covers_iff w).mp hsw
  have hne : r.opcode ≠ s.opcode := fun he => hrs (eq_of_opcode_eq hr hs he)
  by_cases hro : r.opcode = sys
  · have hmeets := hro ▸ hsfits.meets hrfits
    exact .inl ⟨hro, (eq_of_meets_sys s.opcode hmeets).resolve_left
      fun hso => hne (hro.trans hso.symm)⟩
  · by_cases hso : s.opcode = sys
    · have hmeets := hso ▸ hrfits.meets hsfits
      exact .inr ⟨hso, (eq_of_meets_sys r.opcode hmeets).resolve_left hro⟩
    · exact absurd (eq_of_meets _ _ hro hso (hrfits.meets hsfits)) hne

theorem Precedes.of_sublist (h : [r, s].Sublist rows) : Precedes rows r.opcode s.opcode :=
  h.map Row.opcode

theorem Precedes.sublist (hr : r ∈ table) (hs : s ∈ table)
    (h : Precedes table r.opcode s.opcode) : [r, s].Sublist table := by
  obtain ⟨rows, hrows, hmap⟩ := List.sublist_map_iff.mp h
  obtain ⟨r', rest, rfl, hro, hrest⟩ := List.map_eq_cons_iff.mp hmap.symm
  obtain ⟨s', rfl, hso⟩ := List.map_eq_singleton_iff.mp hrest
  have hr' : r' ∈ table := hrows.subset List.mem_cons_self
  have hs' : s' ∈ table := hrows.subset (List.mem_cons_of_mem r' List.mem_cons_self)
  rwa [eq_of_opcode_eq hr' hr hro, eq_of_opcode_eq hs' hs hso] at hrows

theorem precedes_table : ∀ o : Opcode, o = cls ∨ o = ret → Precedes table o sys := by decide

theorem ofWordBy?_eq_of_perm (h : rows.Perm table)
    (hstands : ∀ o : Opcode, o = cls ∨ o = ret → Precedes rows o sys) (w : UInt16) :
    ofWordBy? rows w = ofWordBy? table w := by
  refine congrArg (Option.map Row.opcode) (find?_eq_of_perm h nodup_table ?_)
  intro r s hrw hsw hrs
  have hr : r ∈ table := h.mem_iff.mp (hrs.subset List.mem_cons_self)
  have hs : s ∈ table := h.mem_iff.mp (hrs.subset (List.mem_cons_of_mem r List.mem_cons_self))
  have hne : r ≠ s := by
    have hnodup : [r, s].Nodup := hrs.nodup (h.nodup_iff.mpr nodup_table)
    simpa using hnodup
  rcases opcodes_of_covers hr hs hne hrw hsw with ⟨hro, hso⟩ | ⟨hso, hro⟩
  · have hswap := Precedes.of_sublist hrs
    rw [hro] at hswap
    exact absurd hswap (not_sublist_swap (nodup_opcodes_of_perm h) (hstands s.opcode hso))
  · refine Precedes.sublist hr hs ?_
    rw [hso]
    exact precedes_table r.opcode hro

theorem precedes_of_ofWordBy? {o : Opcode} (h : rows.Perm table) (ho : ofWordBy? rows w = some o)
    (hne : o ≠ sys) (hw : sys.Fits w) : Precedes rows o sys := by
  obtain ⟨r, hfound, rfl⟩ := Option.map_eq_some_iff.mp ho
  obtain ⟨s, hs, hso⟩ := List.mem_map.mp (mem_opcodes sys)
  have hcovers : s.covers w = true := by
    rw [(agrees_of_mem_table s hs).covers_iff, hso]
    exact hw
  have hrs : r ≠ s := by
    rintro rfl
    exact hne hso
  have hsub := sublist_of_find? hfound (h.mem_iff.mpr hs) hcovers hrs
  exact hso ▸ Precedes.of_sublist hsub

end Opcode

namespace Instruction

open Opcode

variable {rows : List Row}

theorem map_opcode_decodeBy (rows : List Row) (w : UInt16) :
    (decodeBy rows w).toOption.map opcode = ofWordBy? rows w := by
  rw [decodeBy]
  cases ofWordBy? rows w with
  | none => rfl
  | some o => exact congrArg some (opcode_withOperands w o)

/-- In whatever order the rows stand: every word is read as before if and only if the two words of
their own still come before 0nnn. -/
theorem decodeBy_eq_decode_iff (h : rows.Perm table) :
    (∀ w, decodeBy rows w = decode w) ↔ Precedes rows .cls .sys ∧ Precedes rows .ret .sys := by
  constructor
  · intro hsame
    have hof : ∀ w, ofWordBy? rows w = ofWordBy? table w := by
      intro w
      rw [← map_opcode_decodeBy, ← map_opcode_decodeBy, hsame w, decode]
    have hcls : ofWordBy? table 0x00E0 = some .cls := by decide
    have hret : ofWordBy? table 0x00EE = some .ret := by decide
    exact ⟨precedes_of_ofWordBy? h ((hof _).trans hcls) (by decide) (by decide),
      precedes_of_ofWordBy? h ((hof _).trans hret) (by decide) (by decide)⟩
  · rintro ⟨hcls, hret⟩ w
    have hstands : ∀ o : Opcode, o = .cls ∨ o = .ret → Precedes rows o .sys := by
      rintro o (rfl | rfl)
      · exact hcls
      · exact hret
    rw [decode, decodeBy, decodeBy, ofWordBy?_eq_of_perm h hstands]

theorem decodeBy_turned :
    (table.drop 3 ++ table.take 3).Perm table ∧ table.reverse.Perm table ∧
      (∀ w, decodeBy (table.drop 3 ++ table.take 3) w = decode w) ∧
      ¬ ∀ w, decodeBy table.reverse w = decode w := by
  have hlast : (table.drop 3 ++ table.take 3).Perm table :=
    List.perm_append_comm.trans (.of_eq (List.take_append_drop 3 table))
  have hturned : table.reverse.Perm table := List.reverse_perm table
  refine ⟨hlast, hturned, (decodeBy_eq_decode_iff hlast).mpr (by decide), ?_⟩
  rw [decodeBy_eq_decode_iff hturned]
  decide

end Instruction

end ChipEight
