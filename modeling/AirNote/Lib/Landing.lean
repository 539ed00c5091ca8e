import AirNote.Lib.FileTree

/-!
# Where an open lands

A file is opened for writing under a path whose last entry may be absent: then
the file is made where the path leads. So a link that dangles is followed too,
and the file is made where the link points.

## Main results

* `locate_of_canonicalize` — a path that leads to an entry lands there.
* `land_append` — a path lands below the folder it goes through.
* `eq_append_of_land` — names without links land below where they start.
-/

namespace AirNote.Lib.FileTree

open Paths

/-- Walk the components from a place; the last entry may be absent. -/
def landStep (follow : Place → Path → Option Place) (t : Tree) :
    Place → Path → Option Place
  | cur, [] => some cur
  | _, .rootDir :: rest => landStep follow t [] rest
  | cur, .curDir :: rest => landStep follow t cur rest
  | cur, .parentDir :: rest => landStep follow t cur.dropLast rest
  | cur, .normal n :: rest =>
      match t.node (cur ++ [n]) with
      | none => if rest = [] then some (cur ++ [n]) else none
      | some node =>
          match node.kind with
          | .directory => landStep follow t (cur ++ [n]) rest
          | .symlink target => follow cur (target ++ rest)
          | _ => if rest = [] then some (cur ++ [n]) else none

/-- Walk, following at most so many links. -/
def land (t : Tree) : Nat → Place → Path → Option Place
  | 0 => landStep (fun _ _ => none) t
  | links + 1 => landStep (land t links) t

/-- The place an open of the path lands at. -/
def Tree.locate (t : Tree) (p : Path) : Option Place :=
  (t.start p).bind fun cur => land t maxLinks cur p

theorem landStep_of_walkStep {follow follow' : Place → Path → Option Place}
    {t : Tree} (hfollow : ∀ cur p q, follow cur p = some q →
      follow' cur p = some q) {p : Path} :
    ∀ {cur q : Place}, walkStep follow t cur p = some q →
      landStep follow' t cur p = some q := by
  induction p with
  | nil => exact fun h => h
  | cons c rest ih =>
      intro cur q h
      cases c with
      | rootDir => exact ih h
      | curDir => exact ih h
      | parentDir => exact ih h
      | normal n =>
          rw [walkStep] at h
          rw [landStep]
          cases hnode : t.node (cur ++ [n]) with
          | none =>
              rw [hnode] at h
              cases h
          | some node =>
              rw [hnode] at h
              cases hkind : node.kind with
              | directory =>
                  simp only [hkind] at h ⊢
                  exact ih h
              | symlink target =>
                  simp only [hkind] at h ⊢
                  exact hfollow _ _ _ h
              | regular content =>
                  simp only [hkind] at h ⊢
                  exact h
              | other =>
                  simp only [hkind] at h ⊢
                  exact h

theorem land_of_walk {t : Tree} (links : Nat) :
    ∀ cur p q, walk t links cur p = some q → land t links cur p = some q := by
  induction links with
  | zero =>
      intro cur p q h
      exact landStep_of_walkStep (fun _ _ _ hnone => by cases hnone) h
  | succ links ih =>
      intro cur p q h
      exact landStep_of_walkStep ih h

/-- A path that leads to an entry lands there. -/
theorem locate_of_canonicalize {t : Tree} {p : Path} {q : Place}
    (h : t.canonicalize p = some q) : t.locate p = some q := by
  rw [Tree.canonicalize, Option.bind_eq_some_iff] at h
  obtain ⟨cur, hstart, hwalk⟩ := h
  rw [Tree.locate, hstart]
  exact land_of_walk maxLinks cur p q hwalk

theorem landStep_append {follow follow' : Place → Path → Option Place}
    {t : Tree} {r : Path} (hr : r ≠ []) {q : Place} {P : Place → Prop}
    (hfollow : ∀ cur p, follow' cur (p ++ r) = some q →
      ∃ f, follow cur p = some f ∧ P f)
    (hhere : ∀ f, landStep follow' t f r = some q → P f) {p : Path} :
    ∀ {cur : Place}, landStep follow' t cur (p ++ r) = some q →
      ∃ f, walkStep follow t cur p = some f ∧ P f := by
  induction p with
  | nil => exact fun h => ⟨_, rfl, hhere _ h⟩
  | cons c rest ih =>
      intro cur h
      cases c with
      | rootDir => exact ih h
      | curDir => exact ih h
      | parentDir => exact ih h
      | normal n =>
          have hmore : ¬ rest ++ r = [] := fun hnil =>
            hr (List.append_eq_nil_iff.mp hnil).2
          rw [List.cons_append, landStep] at h
          rw [walkStep]
          cases hnode : t.node (cur ++ [n]) with
          | none =>
              rw [hnode] at h
              simp only [if_neg hmore] at h
              cases h
          | some node =>
              rw [hnode] at h
              cases hkind : node.kind with
              | directory =>
                  simp only [hkind] at h ⊢
                  exact ih h
              | symlink target =>
                  simp only [hkind] at h ⊢
                  rw [← List.append_assoc] at h
                  exact hfollow _ _ h
              | regular content =>
                  simp only [hkind, if_neg hmore] at h
                  cases h
              | other =>
                  simp only [hkind, if_neg hmore] at h
                  cases h

/-- A path that goes on after a folder lands where it goes from there. -/
theorem land_append {t : Tree} {r : Path} (hr : r ≠ []) {q : Place}
    (links : Nat) :
    ∀ cur p, land t links cur (p ++ r) = some q →
      ∃ f, walk t links cur p = some f ∧ ∃ m, land t m f r = some q := by
  induction links with
  | zero =>
      intro cur p h
      exact landStep_append hr (fun _ _ hnone => by cases hnone)
        (fun f hf => ⟨0, hf⟩) h
  | succ links ih =>
      intro cur p h
      exact landStep_append hr ih (fun f hf => ⟨links + 1, hf⟩) h

/-- None of the entries on the way is a link. -/
def Tree.LinkFree (t : Tree) (f r : Place) : Prop :=
  ∀ r', r' ≠ [] → r' <+: r → ∀ node, t.node (f ++ r') = some node →
    node.isSymlink = false

theorem eq_append_of_landStep {follow : Place → Path → Option Place} {t : Tree}
    {r : Place} :
    ∀ {f q : Place}, t.LinkFree f r →
      landStep follow t f (r.map .normal) = some q → q = f ++ r := by
  induction r with
  | nil =>
      intro f q _ h
      rw [List.append_nil]
      exact (Option.some.inj h).symm
  | cons n r ih =>
      intro f q hfree h
      have hassoc : f ++ n :: r = f ++ [n] ++ r := by simp
      have hhead : ∀ node, t.node (f ++ [n]) = some node →
          node.isSymlink = false :=
        hfree [n] (by simp) ⟨r, rfl⟩
      have hrest : t.LinkFree (f ++ [n]) r := by
        intro r' _ hpre node hnode
        rw [List.append_assoc] at hnode
        exact hfree (n :: r') (by simp) (List.cons_prefix_cons.mpr ⟨rfl, hpre⟩)
          node hnode
      -- a walk that ends here has no names left
      have hends : (if r.map Component.normal = [] then some (f ++ [n])
          else none) = some q → q = f ++ n :: r := by
        intro hif
        rw [Option.ite_none_right_eq_some, List.map_eq_nil_iff] at hif
        rw [hif.1]
        exact (Option.some.inj hif.2).symm
      rw [List.map_cons, landStep] at h
      cases hnode : t.node (f ++ [n]) with
      | none =>
          rw [hnode] at h
          exact hends h
      | some node =>
          rw [hnode] at h
          cases hkind : node.kind with
          | directory =>
              simp only [hkind] at h
              rw [hassoc]
              exact ih hrest h
          | symlink target =>
              have hlink := hhead node hnode
              simp [Node.isSymlink, hkind] at hlink
          | regular content =>
              simp only [hkind] at h
              exact hends h
          | other =>
              simp only [hkind] at h
              exact hends h

/-- Names without links land below where they start. -/
theorem eq_append_of_land {t : Tree} {f r q : Place} (hfree : t.LinkFree f r)
    {m : Nat} (h : land t m f (r.map .normal) = some q) : q = f ++ r := by
  cases m with
  | zero => exact eq_append_of_landStep hfree h
  | succ m => exact eq_append_of_landStep hfree h

/-- Where a path lands, the folders it goes through lead somewhere. -/
theorem exists_locate_of_append {t : Tree} {d r q : Place}
    (h : t.locate (absolute (d ++ r)) = some q) :
    ∃ f, t.locate (absolute d) = some f := by
  by_cases hr : r = []
  · rw [hr, List.append_nil] at h
    exact ⟨q, h⟩
  · have hr' : r.map Component.normal ≠ [] := by simpa using hr
    have hsplit : absolute (d ++ r) = absolute d ++ r.map .normal := by
      simp [absolute]
    have hland : land t maxLinks [] (absolute d ++ r.map .normal) = some q := by
      rw [← hsplit]
      exact h
    obtain ⟨f, hwalk, -⟩ := land_append hr' maxLinks [] (absolute d) hland
    exact ⟨f, land_of_walk maxLinks [] _ f hwalk⟩

/-- A place below a folder, no link on the way, lands below where the folder
does. -/
theorem locate_append {t : Tree} {d r q f : Place}
    (hf : t.locate (absolute d) = some f) (hfree : t.LinkFree f r)
    (h : t.locate (absolute (d ++ r)) = some q) : q = f ++ r := by
  by_cases hr : r = []
  · subst hr
    rw [List.append_nil] at h ⊢
    rw [hf] at h
    exact (Option.some.inj h).symm
  · have hr' : r.map Component.normal ≠ [] := by simpa using hr
    have hsplit : absolute (d ++ r) = absolute d ++ r.map .normal := by
      simp [absolute]
    have hland : land t maxLinks [] (absolute d ++ r.map .normal) = some q := by
      rw [← hsplit]
      exact h
    obtain ⟨f', hwalk, m, hm⟩ := land_append hr' maxLinks [] (absolute d) hland
    have hsame : some f' = some f :=
      (land_of_walk maxLinks [] _ f' hwalk).symm.trans hf
    rw [Option.some.inj hsame] at hm
    exact eq_append_of_land hfree hm

end AirNote.Lib.FileTree
