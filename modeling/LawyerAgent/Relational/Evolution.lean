import LawyerAgent.Relational.Table

/-!
# Evolution of a table

`Evolves R B t t'` follows the rows of a table by their key from `t` to `t'`:
no row is lost, each row that was there is related by `R` to what it has
become, and each new row satisfies `B`.
-/

set_option autoImplicit false

namespace Relational

variable {ρ κ : Type} {S : Schema ρ κ} {R R' : ρ → ρ → Prop} {B B' : ρ → Prop}

structure Evolves (R : ρ → ρ → Prop) (B : ρ → Prop) (t t' : Table S) : Prop where
  kept : ∀ r ∈ t, ∃ r' ∈ t', S.key r' = S.key r ∧ R r r'
  came : ∀ r' ∈ t', (∃ r ∈ t, S.key r' = S.key r ∧ R r r') ∨
    B r' ∧ ∀ r ∈ t, S.key r' ≠ S.key r

theorem evolves_refl (hR : ∀ r, R r r) (t : Table S) : Evolves R B t t :=
  ⟨fun r h => ⟨r,h,rfl,hR r⟩,fun r h => Or.inl ⟨r,h,rfl,hR r⟩⟩

theorem evolves_trans {t u v : Table S} (hR : ∀ a b c, R a b → R b c → R a c)
    (hB : ∀ a b, B a → R a b → B b) (h : Evolves R B t u) (k : Evolves R B u v) :
    Evolves R B t v := by
  constructor
  · intro r hr
    obtain ⟨r',hr',hk',hR'⟩ := h.kept r hr
    obtain ⟨r'',hr'',hk'',hR''⟩ := k.kept r' hr'
    exact ⟨r'',hr'',hk''.trans hk',hR _ _ _ hR' hR''⟩
  · intro r'' hr''
    rcases k.came r'' hr'' with ⟨r',hr',hk',hR'⟩ | ⟨hb,hfresh⟩
    · rcases h.came r' hr' with ⟨r,hr,hk,hRr⟩ | ⟨hb,hfresh⟩
      · exact Or.inl ⟨r,hr,hk'.trans hk,hR _ _ _ hRr hR'⟩
      · exact Or.inr ⟨hB _ _ hb hR',fun r hr => hk' ▸ hfresh r hr⟩
    · refine Or.inr ⟨hb,fun r hr hk => ?_⟩
      obtain ⟨r',hr',hk',-⟩ := h.kept r hr
      exact hfresh r' hr' (hk.trans hk'.symm)

variable {t t' : Table S}

theorem evolves_mono (hR : ∀ a b, R a b → R' a b) (hB : ∀ a, B a → B' a) (h : Evolves R B t t') :
    Evolves R' B' t t' := by
  constructor
  · intro r hr
    obtain ⟨r',hr',hk,hRr⟩ := h.kept r hr
    exact ⟨r',hr',hk,hR _ _ hRr⟩
  · intro r' hr'
    rcases h.came r' hr' with ⟨r,hr,hk,hRr⟩ | ⟨hb,hfresh⟩
    · exact Or.inl ⟨r,hr,hk,hR _ _ hRr⟩
    · exact Or.inr ⟨hB _ hb,hfresh⟩

theorem evolves_inserted {r : ρ} (hR : ∀ r, R r r) (hB : B r) (h : Inserted r t t') :
    Evolves R B t t' := by
  constructor
  · intro x hx
    exact ⟨x,(inserted_mem h).mpr (Or.inr hx),rfl,hR x⟩
  · intro x hx
    rcases (inserted_mem h).mp hx with rfl | hx
    · exact Or.inr ⟨hB,fun y hy => (inserted_fresh h hy).1⟩
    · exact Or.inl ⟨x,hx,rfl,hR x⟩

theorem evolves_insertedRows {rs : List ρ} (hR : ∀ r, R r r) (hB : ∀ r ∈ rs, B r)
    (h : t'.rows = rs++t.rows) : Evolves R B t t' := by
  have hmem : ∀ x, x ∈ t' ↔ x ∈ rs ∨ x ∈ t := by
    intro x
    rw [mem_rows,h,List.mem_append]
    rfl
  have hpair := t'.legal.2
  rw [h,List.pairwise_append] at hpair
  constructor
  · intro x hx
    exact ⟨x,(hmem x).mpr (Or.inr hx),rfl,hR x⟩
  · intro x hx
    rcases (hmem x).mp hx with hx | hx
    · exact Or.inr ⟨hB x hx,fun y hy => (hpair.2.2 x hx y hy).1⟩
    · exact Or.inl ⟨x,hx,rfl,hR x⟩

theorem evolves_related {r r' : ρ} (h : Evolves R B t t') (hr : r ∈ t) (hr' : r' ∈ t')
    (hk : S.key r' = S.key r) : R r r' := by
  obtain ⟨x,hx,hkx,hRx⟩ := h.kept r hr
  rw [eq_of_key hr' hx (hk.trans hkx.symm)]
  exact hRx

theorem evolves_updated {p : ρ → Bool} {f : ρ → ρ} (hf : ∀ r, S.key (f r) = S.key r)
    (hR : ∀ r, R r r) (hRf : ∀ r, p r = true → R r (f r))
    (hu : t'.rows = t.rows.map fun r => if p r then f r else r) : Evolves R B t t' := by
  have hRi : ∀ r, R r (if p r then f r else r) := by
    intro r
    by_cases hp : p r = true
    · simpa only [if_pos hp] using hRf r hp
    · simpa only [if_neg hp] using hR r
  have hki : ∀ r, S.key (if p r then f r else r) = S.key r := by
    intro r
    by_cases hp : p r = true
    · simpa only [if_pos hp] using hf r
    · simp only [if_neg hp]
  constructor
  · intro r hr
    refine ⟨_,?_,hki r,hRi r⟩
    rw [mem_rows,hu]
    exact List.mem_map_of_mem hr
  · intro r' hr'
    rw [mem_rows,hu] at hr'
    obtain ⟨r,hr,rfl⟩ := List.mem_map.mp hr'
    exact Or.inl ⟨r,hr,hki r,hRi r⟩

variable [DecidableEq κ]

theorem evolves_replaced {r r' : ρ} (hR : ∀ r, R r r) (hrr : R r r') (h : Replaced r r' t t') :
    Evolves R B t t' := by
  constructor
  · intro x hx
    by_cases hk : S.key x = S.key r
    · rw [eq_of_key hx h.mem hk]
      exact ⟨r',(replaced_mem h).mpr (Or.inl rfl),h.key,hrr⟩
    · exact ⟨x,(replaced_mem h).mpr (Or.inr ⟨hx,hk⟩),rfl,hR x⟩
  · intro x hx
    rcases (replaced_mem h).mp hx with rfl | ⟨hx,-⟩
    · exact Or.inl ⟨r,h.mem,h.key,hrr⟩
    · exact Or.inl ⟨x,hx,rfl,hR x⟩

end Relational
