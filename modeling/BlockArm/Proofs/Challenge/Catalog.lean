/-
# Looking challenges up

An insertion replaces the first definition of its name or adds a new one, so that a catalog that was
only inserted into has each name once and finds the definition that was given last.  A document is
taken over as it is.  If it defines a name twice, the catalog has the name twice, and finds the
first of these definitions until the name is inserted again.

* `Catalog.Obtained`: the catalogs that come from a document and from insertions;
* `Catalog.latest`: the definition that was given last;
* `Catalog.find?_put`, `Catalog.names_insert`: what an insertion does to look-ups and to the names;
* `Catalog.Obtained.find?_eq`: what look-ups find after any insertions;
* `Catalog.faithful_iff`: names are told apart just if the document has no name twice.
-/
import BlockArm.Toml.Decode
import Mathlib.Data.List.Nodup

namespace BlockArm

namespace Catalog

/-! ## What is asked of a catalog -/

/-- What a look-up answers, given what it finds. -/
def answer (name : String) : Option Challenge → Except Fault Challenge
  | some c => .ok c
  | none => .error (.unknownChallenge name)

/-- The definition that was given last for a name. -/
def latest (given : List Challenge) (name : String) : Except Fault Challenge :=
  answer name (given.reverse.find? (·.name == name))

/-- The catalogs that come from a document, which may be none at all, by inserting challenges. -/
inductive Obtained : (document inserted : List Challenge) → Catalog → Prop where
  | new : Obtained [] [] {}
  | read {document : List Challenge} {k : Catalog} :
      ofChallenges document = .ok k → Obtained document [] k
  | insert {document inserted : List Challenge} {k : Catalog} (c : Challenge) :
      Obtained document inserted k → Obtained document (inserted ++ [c]) (k.insert c)

/-- The catalog tells the names apart: it has each of them once, an insertion leaves the others in
their order, and a look-up answers the definition that was given last. -/
structure Faithful (k : Catalog) (given : List Challenge) : Prop where
  distinct : k.names.Nodup
  ordered : ∀ c : Challenge,
    (k.insert c).names.filter (· ≠ c.name) = k.names.filter (· ≠ c.name)
  latest : ∀ name, k.get name = latest given name

/-! ## Insertions -/

theorem answer_inj {name : String} {found other : Option Challenge} :
    answer name found = answer name other ↔ found = other := by
  cases found <;> cases other <;> simp [answer]

theorem get_eq (k : Catalog) (name : String) :
    k.get name = answer name (k.challenges.find? (·.name == name)) := by
  unfold get answer
  rfl

/-- A look-up finds what was put in last. -/
theorem find?_put (c : Challenge) (name : String) (ds : List Challenge) :
    (put c ds).find? (·.name == name) =
      if c.name = name then some c else ds.find? (·.name == name) := by
  induction ds with
  | nil => by_cases hname : c.name = name <;> simp [put, hname]
  | cons d ds ih =>
    by_cases hd : d.name = c.name
    · by_cases hname : c.name = name <;> simp [put, hd, hname]
    · rw [put, if_neg hd]
      by_cases hdname : d.name = name
      · have hname : c.name ≠ name := fun h => hd (hdname.trans h.symm)
        rw [List.find?_cons_of_pos (by simpa using hdname), if_neg hname,
          List.find?_cons_of_pos (by simpa using hdname)]
      · rw [List.find?_cons_of_neg (by simpa using hdname), ih,
          List.find?_cons_of_neg (by simpa using hdname)]

/-- A new name comes last, and a known one stays where it is. -/
theorem map_name_put (c : Challenge) (ds : List Challenge) :
    (put c ds).map Challenge.name =
      if c.name ∈ ds.map Challenge.name then ds.map Challenge.name
      else ds.map Challenge.name ++ [c.name] := by
  induction ds with
  | nil => rfl
  | cons d ds ih =>
    by_cases hd : d.name = c.name
    · simp [put, hd]
    · by_cases hmem : c.name ∈ ds.map Challenge.name
      · rw [if_pos hmem] at ih
        rw [put, if_neg hd, List.map_cons, ih, List.map_cons, if_pos (List.mem_cons_of_mem _ hmem)]
      · have hmem' : c.name ∉ d.name :: ds.map Challenge.name := fun h =>
          (List.mem_cons.mp h).elim (fun heq => hd heq.symm) hmem
        rw [if_neg hmem] at ih
        rw [put, if_neg hd, List.map_cons, ih, List.map_cons, if_neg hmem', List.cons_append]

theorem names_insert (k : Catalog) (c : Challenge) :
    (k.insert c).names = if c.name ∈ k.names then k.names else k.names ++ [c.name] :=
  map_name_put c k.challenges

/-- Each name stays there once, if it was there once. -/
theorem nodup_names_insert (k : Catalog) (c : Challenge) :
    (k.insert c).names.Nodup ↔ k.names.Nodup := by
  rw [names_insert]
  split
  · rfl
  · next hmem =>
    rw [← List.concat_eq_append, List.nodup_concat]
    exact and_iff_right hmem

/-- The other names stay in their order. -/
theorem filter_names_insert (k : Catalog) (c : Challenge) :
    (k.insert c).names.filter (· ≠ c.name) = k.names.filter (· ≠ c.name) := by
  rw [names_insert]
  split
  · rfl
  · simp

/-! ## Look-ups after insertions -/

/-- A document is taken over as it is. -/
theorem challenges_of_ofChallenges {document : List Challenge} {k : Catalog}
    (h : ofChallenges document = .ok k) : k.challenges = document := by
  unfold ofChallenges at h
  split at h
  · exact absurd h (by simp)
  · obtain rfl := Except.ok.inj h
    rfl

namespace Obtained

variable {document inserted : List Challenge} {k : Catalog}

/-- A look-up finds what was inserted last or else what comes first in the document. -/
theorem find?_eq (h : Obtained document inserted k) (name : String) :
    k.challenges.find? (·.name == name) =
      (inserted.reverse.find? (·.name == name)).or (document.find? (·.name == name)) := by
  induction h with
  | new => rfl
  | read h => rw [challenges_of_ofChallenges h, List.reverse_nil, List.find?_nil, Option.none_or]
  | insert c h ih =>
    rw [Catalog.insert, find?_put, ih, List.reverse_append, List.reverse_singleton,
      List.singleton_append]
    by_cases hname : c.name = name
    · rw [if_pos hname, List.find?_cons_of_pos (by simpa using hname), Option.some_or]
    · rw [if_neg hname, List.find?_cons_of_neg (by simpa using hname)]

theorem nodup_names_iff (h : Obtained document inserted k) :
    k.names.Nodup ↔ (document.map Challenge.name).Nodup := by
  induction h with
  | new => rfl
  | read h => rw [names, challenges_of_ofChallenges h]
  | insert c h ih => rw [nodup_names_insert, ih]

/-- A look-up finds what was given last if the name was inserted or if the document does not define
it in two ways. -/
theorem get_eq_latest_iff (h : Obtained document inserted k) (name : String) :
    k.get name = latest (document ++ inserted) name ↔ (∃ c ∈ inserted, c.name = name) ∨
      document.find? (·.name == name) = document.reverse.find? (·.name == name) := by
  rw [get_eq, latest, answer_inj, h.find?_eq, List.reverse_append, List.find?_append]
  cases hfind : inserted.reverse.find? (·.name == name) with
  | some c =>
    have hmem := List.mem_reverse.mp (List.mem_of_find?_eq_some hfind)
    have hname := List.find?_some (p := fun c : Challenge => c.name == name) hfind
    exact ⟨fun _ => .inl ⟨c, hmem, beq_iff_eq.mp hname⟩, fun _ => rfl⟩
  | none =>
    rw [Option.none_or, Option.none_or]
    refine ⟨.inr, Or.rec ?_ id⟩
    rintro ⟨c, hmem, hname⟩
    exact absurd (beq_iff_eq.mpr hname) (List.find?_eq_none.mp hfind c (List.mem_reverse.mpr hmem))

end Obtained

/-- Where no name comes twice, it does not matter from which side it is looked for. -/
theorem find?_reverse_of_nodup {ds : List Challenge} (h : (ds.map Challenge.name).Nodup)
    (name : String) : ds.reverse.find? (·.name == name) = ds.find? (·.name == name) := by
  induction ds with
  | nil => rfl
  | cons d ds ih =>
    rw [List.map_cons, List.nodup_cons] at h
    rw [List.reverse_cons, List.find?_append, ih h.2]
    by_cases hname : d.name = name
    · have hnone : ds.find? (·.name == name) = none := by
        refine List.find?_eq_none.mpr fun c hc hcname => h.1 ?_
        rw [hname, ← beq_iff_eq.mp hcname]
        exact List.mem_map_of_mem hc
      rw [hnone, Option.none_or, List.find?_cons_of_pos (by simpa using hname),
        List.find?_cons_of_pos (by simpa using hname)]
    · rw [List.find?_cons_of_neg (by simpa using hname),
        List.find?_cons_of_neg (by simpa using hname), List.find?_nil, Option.or_none]

/-- **Catalogs tell names apart just if their documents do.**  Whatever is inserted, the other names
stay in their order.  A single look-up goes wrong only for a name that the document defines in two
ways and that was not inserted since. -/
theorem faithful_iff {document inserted : List Challenge} {k : Catalog}
    (h : Obtained document inserted k) :
    (k.Faithful (document ++ inserted) ↔ (document.map Challenge.name).Nodup) ∧
      ∀ name, k.get name = latest (document ++ inserted) name ↔ (∃ c ∈ inserted, c.name = name) ∨
        document.find? (·.name == name) = document.reverse.find? (·.name == name) := by
  refine ⟨⟨fun hfaithful => h.nodup_names_iff.mp hfaithful.distinct, fun hnodup => ?_⟩,
    h.get_eq_latest_iff⟩
  exact
    { distinct := h.nodup_names_iff.mpr hnodup
      ordered := filter_names_insert k
      latest := fun name =>
        (h.get_eq_latest_iff name).mpr (.inr (find?_reverse_of_nodup hnodup name).symm) }

/-- A challenge without blocks. -/
def bare (name : String) (floorLevel : Int32) : Challenge := { name, floorLevel }

/-- A document of two challenges, one of which is given anew and comes to another floor level. -/
theorem faithful_raised :
    ∃ k, Obtained [bare "lift" 1, bare "stack" 1] [bare "lift" 2] k ∧
      k.Faithful [bare "lift" 1, bare "stack" 1, bare "lift" 2] := by
  have hread : ofChallenges [bare "lift" 1, bare "stack" 1] =
      .ok ⟨[bare "lift" 1, bare "stack" 1]⟩ := by
    rfl
  have hobtained := Obtained.insert (bare "lift" 2) (.read hread)
  exact ⟨_, hobtained, (faithful_iff hobtained).1.mpr (by decide)⟩

/-- A document may define a challenge twice, and then the first definition is found. -/
theorem exists_get_ne_latest : ∃ k, Obtained [bare "lift" 1, bare "lift" 2] [] k ∧
    ¬ k.names.Nodup ∧ k.get "lift" ≠ latest [bare "lift" 1, bare "lift" 2] "lift" := by
  have hread : ofChallenges [bare "lift" 1, bare "lift" 2] =
      .ok ⟨[bare "lift" 1, bare "lift" 2]⟩ := by
    rfl
  refine ⟨_, .read hread, by decide, fun h => ?_⟩
  have hfloor : (1 : Int32) = 2 := congrArg Challenge.floorLevel (Except.ok.inj h)
  exact absurd hfloor (by decide)

end Catalog

end BlockArm
