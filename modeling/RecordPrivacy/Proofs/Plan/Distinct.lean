import RecordPrivacy.Proofs.Plan.Origin

/-! Leaves with one directive of an action at most.

Such a leaf has one plan of the action at most, so that no two plans of an action have one path
(`nodup_paths`). Every leaf is like this if fields are told apart by their indices and the
directives of a leaf by their actions (`Family.Distinct.single`): whatever tells the fields of every
type apart tells apart the ways to leaves (`way_eq_of_keys`). -/
namespace RecordPrivacy
variable {n : Nat} {family : Family n} {root : Fin n}

/-- The declaration indices that lead to the field. -/
def Site.path (site : Site n) : List Nat :=
  site.way.map (·.field.index) ++ [site.field.index]

/-- No leaf has two directives of one action. -/
def SingleDirectives (family : Family n) (root : Fin n) : Prop :=
  ∀ a b : Site n, a.Of family root → b.Of family root → a.action?.isSome →
    a.action? = b.action? → a.path = b.path → a = b

theorem Compiled.action?_eq {site : Site n} {entry : Action × FieldPlan} (h : Compiled site entry) :
    site.action? = some entry.1 := by
  cases h
  rfl

theorem Compiled.path_eq {site : Site n} {entry : Action × FieldPlan} (h : Compiled site entry) :
    entry.2.path = site.path := by
  cases h
  rfl

theorem nodup_paths (h : PlanSet.compile family root = .ok plans)
    (single : SingleDirectives family root) (action : Action) :
    ((plans.forAction action).map FieldPlan.path).Nodup := by
  obtain ⟨sites, hsorted, hmem, hcompiled⟩ := compile_planned h
  obtain ⟨hlength, hget⟩ := List.forall₂_iff_get.mp hcompiled
  have hpairs : plans.entries.Pairwise fun a b => a.1 = b.1 → a.2.path ≠ b.2.path := by
    rw [List.pairwise_iff_getElem]
    intro i j hi hj hlt haction hpath
    have ha := hget i (by omega) hi
    have hb := hget j (by omega) hj
    obtain ⟨hsite, hsome⟩ := (hmem _).mp (List.get_mem sites ⟨i, by omega⟩)
    obtain ⟨hsite', -⟩ := (hmem _).mp (List.get_mem sites ⟨j, by omega⟩)
    have hsame := single _ _ hsite hsite' hsome
      (by rw [ha.action?_eq, hb.action?_eq]; exact congrArg some haction)
      (by rw [← ha.path_eq, ← hb.path_eq]; exact hpath)
    have hbefore := List.pairwise_iff_getElem.mp hsorted i j (by omega) (by omega) hlt
    rw [List.get_eq_getElem, List.get_eq_getElem] at hsame
    rw [hsame] at hbefore
    exact hbefore.asymm hbefore
  rw [List.Nodup, List.pairwise_map, PlanSet.forAction, List.pairwise_filterMap]
  refine hpairs.imp fun {a b} hab p hp q hq => ?_
  obtain ⟨a, plan⟩ := a
  obtain ⟨b, plan'⟩ := b
  simp only [Option.ite_none_right_eq_some, Option.some.injEq] at hp hq
  obtain ⟨rfl, rfl⟩ := hp
  obtain ⟨rfl, rfl⟩ := hq
  exact hab rfl

/-! ### Fields told apart by a key -/

section
variable {κ : Type} {key : FieldSchema n → κ}

theorem field_eq_of_key {fields : List (FieldSchema n)} (distinct : (fields.map key).Nodup)
    {i j : Nat} {a b : FieldSchema n} (ha : fields[i]? = some a) (hb : fields[j]? = some b)
    (hkey : key a = key b) : i = j ∧ a = b := by
  have hi := (List.getElem?_eq_some_iff.mp ha).1
  obtain rfl : i = j := (List.getElem?_inj (by simpa using hi) distinct).mp
    (by rw [List.getElem?_map, List.getElem?_map, ha, hb, Option.map_some, Option.map_some, hkey])
  exact ⟨rfl, Option.some.inj (ha.symm.trans hb)⟩

/-- A leaf is told by the keys of the fields that lead to it, if on every way the keys of a type are
distinct. -/
theorem way_eq_of_keys {type last last' : Fin n} {way way' : List (Step n)} {place place' : Nat}
    {field field' : FieldSchema n}
    (distinct : ∀ way last, Way family type way last → ((family last).fields.map key).Nodup)
    (hway : Way family type way last) (hway' : Way family type way' last')
    (hfield : (family last).fields[place]? = some field)
    (hfield' : (family last').fields[place']? = some field')
    (hkeys : way.map (key ·.field) ++ [key field] = way'.map (key ·.field) ++ [key field']) :
    way = way' ∧ place = place' ∧ field = field' := by
  induction hway generalizing way' with
  | nil =>
    cases hway' with
    | nil =>
      obtain ⟨rfl, rfl⟩ := field_eq_of_key (distinct _ _ .nil) hfield hfield' (by simpa using hkeys)
      exact ⟨rfl, rfl, rfl⟩
    | cons => simp at hkeys
  | @cons type last step way hstep hway ih =>
    cases hway' with
    | nil => simp at hkeys
    | @cons _ _ step' way' hstep' hway' =>
      rw [List.map_cons, List.map_cons, List.cons_append, List.cons_append, List.cons.injEq]
        at hkeys
      -- The first steps go through one field, and a field leads into one type.
      obtain ⟨hplace, hsame⟩ :=
        field_eq_of_key (distinct _ _ .nil) hstep.declared hstep'.declared hkeys.1
      have hkind := hstep.nested
      rw [hsame, hstep'.nested] at hkind
      obtain rfl : step = step' := by
        obtain ⟨place, field, optional, record⟩ := step
        obtain ⟨place', field', optional', record'⟩ := step'
        simp_all
      obtain ⟨rfl, hrest⟩ :=
        ih (fun way last h => distinct _ _ (.cons hstep h)) hway' hfield hkeys.2
      exact ⟨rfl, hrest⟩

end

/-! ### Fields told apart by their indices -/

def FieldKind.directives : FieldKind n → List Directive
  | .leaf _ directives => directives
  | .nested _ _ => []

/-- No two fields of a type have one index, no two directives of a leaf have one action. -/
structure Family.Distinct (family : Family n) : Prop where
  indices : ∀ type, ((family type).fields.map FieldSchema.index).Nodup
  actions : ∀ type, ∀ field ∈ (family type).fields,
    (field.kind.directives.map Directive.action).Nodup

namespace Family.Distinct

theorem single (distinct : Distinct family) : SingleDirectives family root := by
  intro a b ha hb hsome haction hpath
  obtain ⟨last, hway, hat⟩ := ha
  obtain ⟨last', hway', hat'⟩ := hb
  cases hat with
  | nested => cases hsome
  | @directive way place rank field shape directives directive hfield hkind hrank =>
    cases hat' with
    | nested => cases haction
    | @directive _ _ rank' _ shape' directives' directive' hfield' hkind' hrank' =>
      obtain ⟨rfl, rfl, rfl⟩ :=
        way_eq_of_keys (fun _ last _ => distinct.indices last) hway hway' hfield hfield' hpath
      cases hkind.symm.trans hkind'
      obtain ⟨hlt, hget⟩ := List.getElem?_eq_some_iff.mp hrank
      have hactions := distinct.actions last field (List.mem_of_getElem? hfield)
      rw [hkind, FieldKind.directives] at hactions
      obtain rfl : rank = rank' := (List.getElem?_inj (by simpa using hlt) hactions).mp
        (by rw [List.getElem?_map, List.getElem?_map, hrank, hrank']; exact haction)
      cases hrank.symm.trans hrank'
      rfl

end Family.Distinct

end RecordPrivacy
