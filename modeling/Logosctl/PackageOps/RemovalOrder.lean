/-
# The order of a removal

A removal with dependents asks the package manager, for each package named, for what depends on it,
and takes away the package after its dependents.  The victims of the whole removal are the
cascades merged: of two cascades that overlap, the later one adds only what the earlier one has not.

The package manager's answers are assumed to be what they are documented to be, each on its own:
the dependents of one package, each once, dependents first.  `removal_dependents_first` says that
the merged list is in order too, whatever the names, their order and the overlaps.
-/
import Logosctl.Library.Merge
import Logosctl.PackageOps.Removal

namespace Logosctl.PackageOps

open Library Relation

variable {dependsOn : String → String → Prop}

/-! ## 1. One package's cascade -/

/-- The packages a reply of `resolveFlatDependents` lists; an entry without a name lists none. -/
def Lists (r : Reply) (ns : List String) : Prop :=
  ∃ ds raw, r.json = .arr ds ∧ ds.mapM (fun d => d.valueStr "name") = .ok raw ∧
    ns = raw.filter (· ≠ "")

/-- `ns` is an answer to what depends on `n`: without repetition, closed under dependents, and with
dependents first.  An answer that lists `n` itself lists besides it only what depends on it. -/
structure FlatDependents (dependsOn : String → String → Prop) (n : String) (ns : List String) :
    Prop where
  nodup : ns.Nodup
  closed : ∀ y, y = n ∨ y ∈ ns → ∀ x, dependsOn x y → x ∈ ns
  ordered : DependentsFirst dependsOn ns
  own : n ∈ ns → ∀ y ∈ ns, y = n ∨ TransGen dependsOn y n

/-- What removing `n` takes away: its dependents, and it last. -/
def cascadeOf (n : String) (ns : List String) : List String := ns.filter (· ≠ n) ++ [n]

section Cascade

variable {n x : String} {ns : List String}

theorem mem_cascadeOf : x ∈ cascadeOf n ns ↔ x = n ∨ x ∈ ns := by
  unfold cascadeOf
  rw [List.mem_append, List.mem_filter, List.mem_singleton, decide_eq_true_iff]
  constructor
  · exact fun h => h.symm.imp_right And.left
  · intro h
    by_cases hx : x = n
    · exact Or.inr hx
    · exact Or.inl ⟨h.resolve_left hx, hx⟩

/-- What depends on a listed package, however remotely, is listed before it. -/
theorem FlatDependents.before (h : FlatDependents dependsOn n ns) {y : String}
    (hxy : TransGen dependsOn x y) (hy : y ∈ ns) : x ∈ ns ∧ ns.idxOf x < ns.idxOf y := by
  induction hxy using TransGen.head_induction_on with
  | single hxy =>
    have hx := h.closed _ (Or.inr hy) _ hxy
    exact ⟨hx, h.ordered _ hx _ hy hxy⟩
  | head hxz _ ih =>
    obtain ⟨hz, hlt⟩ := ih
    have hx := h.closed _ (Or.inr hz) _ hxz
    exact ⟨hx, (h.ordered _ hx _ hz hxz).trans hlt⟩

/-- A package depends on none of its dependents: its cascade would have no order. -/
theorem FlatDependents.last (h : FlatDependents dependsOn n ns) {y : String}
    (hy : y = n ∨ y ∈ ns) : ¬ dependsOn n y := by
  intro hny
  have hn : n ∈ ns := h.closed y hy n hny
  have hself : TransGen dependsOn n n := by
    rcases hy with rfl | hy
    · exact .single hny
    · rcases h.own hn y hy with rfl | hyn
      · exact .single hny
      · exact .head hny hyn
  exact absurd (h.before hself hn).2 (Nat.lt_irrefl _)

/-- Leaving members out does not change which of two members comes first. -/
theorem idxOf_filter_lt {p : String → Bool} {l : List String} {x y : String} (hx : p x = true)
    (hy : p y = true) (hmem : x ∈ l) (hlt : l.idxOf x < l.idxOf y) :
    (l.filter p).idxOf x < (l.filter p).idxOf y := by
  induction l with
  | nil => cases hmem
  | cons a l ih =>
    by_cases hxa : a = x
    · subst hxa
      have hya : a ≠ y := by
        rintro rfl
        exact absurd hlt (Nat.lt_irrefl _)
      rw [List.filter_cons_of_pos hx, List.idxOf_cons_self, List.idxOf_cons_ne _ hya]
      exact Nat.succ_pos _
    · have hya : a ≠ y := by
        rintro rfl
        rw [List.idxOf_cons_self] at hlt
        exact absurd hlt (Nat.not_lt_zero _)
      rw [List.idxOf_cons_ne _ hxa, List.idxOf_cons_ne _ hya] at hlt
      have hrest := ih ((List.mem_cons.mp hmem).resolve_left (Ne.symm hxa))
        (Nat.lt_of_succ_lt_succ hlt)
      cases ha : p a with
      | false => rwa [List.filter_cons_of_neg (by simp [ha])]
      | true =>
        rw [List.filter_cons_of_pos ha, List.idxOf_cons_ne _ hxa, List.idxOf_cons_ne _ hya]
        exact Nat.succ_lt_succ hrest

/-- **A cascade is a closed list in order.** -/
theorem FlatDependents.cascade_inOrder (h : FlatDependents dependsOn n ns) :
    (cascadeOf n ns).Nodup ∧ HasDependents dependsOn (cascadeOf n ns) ∧
      DependentsFirst dependsOn (cascadeOf n ns) := by
  have hlast : n ∉ ns.filter (· ≠ n) := by simp
  refine ⟨?_, ?_, ?_⟩
  · refine List.nodup_append.mpr ⟨h.nodup.filter _, List.nodup_singleton n, ?_⟩
    rintro a ha b hb rfl
    exact hlast (List.mem_singleton.mp hb ▸ ha)
  · intro y hy x hxy
    exact mem_cascadeOf.mpr (Or.inr (h.closed y (mem_cascadeOf.mp hy) x hxy))
  · refine dependentsFirst_push ?_ hlast (h.last (Or.inl rfl)) ?_
    · intro x hx y hy hxy
      obtain ⟨hxmem, hxn⟩ := List.mem_filter.mp hx
      obtain ⟨hymem, hyn⟩ := List.mem_filter.mp hy
      exact idxOf_filter_lt (p := (· ≠ n)) hxn hyn hxmem (h.ordered x hxmem y hymem hxy)
    · exact fun a ha => h.last (Or.inr (List.mem_filter.mp ha).1)

end Cascade

/-! ## 2. The victims of a plan -/

/-- The replies from the `c`-th on answer, name for name, what depends on `names`. -/
inductive Answered (env : Env) (dependsOn : String → String → Prop) :
    Nat → List String → List (List String) → Prop
  | nil {c : Nat} : Answered env dependsOn c [] []
  | cons {c : Nat} {n : String} {ns : List String} {names : List String}
      {nss : List (List String)} : Lists (env.reply c) ns → FlatDependents dependsOn n ns →
      Answered env dependsOn (c + 1) names nss → Answered env dependsOn c (n :: names) (ns :: nss)

section Plan

variable {env : Env} {installedByName : List (String × InstalledInfo)} {w : World}

/-- Asked with dependents, a package's removal set is its cascade. -/
theorem exec_removalSet {n : String} {ns : List String} (h : Lists (env.reply w.calls) ns) :
    (removalSet env n true).exec w = (.ok (cascadeOf n ns, ""),
      w.after env (.call kPackageManager "resolveFlatDependents" [.str n, .bool true])) := by
  obtain ⟨ds, raw, hreply, hnames, rfl⟩ := h
  have hset : raw.filter (fun dn => !dn.isEmpty && dn != n) ++ [n] =
      cascadeOf n (raw.filter (· ≠ "")) := by
    unfold cascadeOf
    rw [List.filter_filter]
    congr 1
    refine List.filter_congr fun x _ => ?_
    by_cases hx : x = n <;> by_cases hempty : x = "" <;> simp [hx, hempty]
  unfold removalSet
  rw [if_neg (by simp), Prog.exec_bind_of_ok (exec_call _ _ _ _)]
  dsimp only
  rw [hreply]
  dsimp only
  rw [hnames, Prog.exec_bind_of_ok (p := read (.ok raw)) rfl, ← hset]
  rfl

/-- The changes found so far, while they are named after the packages affected. -/
theorem foldl_changes {f : String → Change} (hf : ∀ x, (f x).name = x) (set : List String) :
    ∀ {acc : List Change × List String}, acc.1.map (·.name) = acc.2 →
      ∃ changes, set.foldl (fun (changes, affected) x =>
          if affected.contains x then (changes, affected)
          else (changes ++ [f x], affected ++ [x])) acc = (changes, keepFirst acc.2 set) ∧
        changes.map (·.name) = keepFirst acc.2 set := by
  induction set with
  | nil => exact fun {acc} hacc => ⟨acc.1, rfl, hacc⟩
  | cons x set ih =>
    rintro ⟨changes, affected⟩ hacc
    dsimp only at hacc
    rw [List.foldl_cons, keepFirst_cons]
    by_cases hx : x ∈ affected
    · rw [if_pos hx]
      dsimp only
      rw [if_pos (List.contains_iff_mem.mpr hx)]
      exact ih hacc
    · rw [if_neg hx]
      dsimp only
      rw [if_neg (fun h => hx (List.contains_iff_mem.mp h))]
      exact ih (by rw [List.map_append, hacc, List.map_singleton, hf])

/-- The packages found so far, with the cascades still to come merged in. -/
theorem exec_planRemove {names : List String} {nss : List (List String)} {c : Nat}
    (h : Answered env dependsOn c names nss)
    (hinstalled : ∀ n ∈ names, (installedByName.lookup n).isSome) :
    ∀ (acc : List Change × List String) {w : World}, w.calls = c → acc.1.map (·.name) = acc.2 →
      ∃ changes w', (planRemove env installedByName true names acc).exec w =
          (.ok (changes, (names.zipWith cascadeOf nss).foldl keepFirst acc.2), w') ∧
        changes.map (·.name) = (names.zipWith cascadeOf nss).foldl keepFirst acc.2 := by
  induction h with
  | nil => exact fun acc w _ hacc => ⟨acc.1, w, rfl, hacc⟩
  | @cons c n ns names nss hlists _ _ ih =>
    intro acc w hc hacc
    subst hc
    have hn : (installedByName.lookup n).isNone = false := by
      rw [← Option.not_isSome, hinstalled n List.mem_cons_self]
      rfl
    have hne : (cascadeOf n ns).isEmpty = false := by simp [cascadeOf]
    obtain ⟨changes, hfold, hchanges⟩ := foldl_changes (f := fun x => ⟨x, .remove,
      ((installedByName.lookup x).map (·.version)).getD "", "", .removal⟩) (fun _ => rfl)
      (cascadeOf n ns) hacc
    unfold planRemove
    rw [if_neg (by simp [hn]), Prog.exec_bind_of_ok (exec_removalSet hlists)]
    dsimp only
    rw [if_neg (by simp [hne]), hfold]
    exact ih (fun m hm => hinstalled m (List.mem_cons_of_mem n hm)) _ rfl hchanges

variable {names : List String} {opts : Options} {nss : List (List String)}

/-- With every name installed and answered, a removal is planned, and its victims are the cascades
merged. -/
theorem exec_plan_remove {m : List (String × InstalledInfo)}
    (hdependents : opts.withDependents = true)
    (hbyName : byName (env.reply w.calls).json.elems = .ok m)
    (hinstalled : ∀ n ∈ names, (m.lookup n).isSome)
    (h : Answered env dependsOn (w.calls + 1) names nss) :
    ∃ p w', (plan env .remove names opts).exec w = (.ok (.report p), w') ∧
      p.victims = mergeAll (names.zipWith cascadeOf nss) := by
  obtain ⟨changes, w₁, hrun, hchanges⟩ := exec_planRemove h hinstalled ([], [])
    (w := w.after env (.call kPackageManager "getInstalledPackages" [])) rfl rfl
  let affected := mergeAll (names.zipWith cascadeOf nss)
  refine ⟨{ op := .remove, changes, affectedLoaded := affectedLoaded w₁.loaded affected }, w₁,
    exec_catchReturn_eq_ok.mpr (Or.inl ?_), hchanges⟩
  unfold planBody
  rw [Prog.exec_bind_of_ok (exec_installedPackages w), hbyName,
    Prog.exec_bind_of_ok (p := read (.ok m)) rfl]
  unfold planChanges
  rw [if_pos rfl, hdependents, Prog.exec_bind_of_ok hrun]
  rfl

theorem Answered.cascades {c : Nat} (h : Answered env dependsOn c names nss) :
    ∀ l ∈ names.zipWith cascadeOf nss, l.Nodup ∧ HasDependents dependsOn l ∧
      DependentsFirst dependsOn l := by
  induction h with
  | nil => simp
  | cons _ hflat _ ih => exact List.forall_mem_cons.mpr ⟨hflat.cascade_inOrder, ih⟩

/-- **The victims of a removal are in order.**  Each is there once, they are the packages named
with their dependents, and none comes after what it depends on. -/
theorem removal_dependents_first {m : List (String × InstalledInfo)}
    (hdependents : opts.withDependents = true)
    (hbyName : byName (env.reply w.calls).json.elems = .ok m)
    (hinstalled : ∀ n ∈ names, (m.lookup n).isSome)
    (h : Answered env dependsOn (w.calls + 1) names nss) :
    ∃ p w', (plan env .remove names opts).exec w = (.ok (.report p), w') ∧
      p.victims.Nodup ∧
      (∀ x, x ∈ p.victims ↔ ∃ asked ∈ names.zip nss, x = asked.1 ∨ x ∈ asked.2) ∧
      DependentsFirst dependsOn p.victims := by
  obtain ⟨p, w', hplan, hvictims⟩ := exec_plan_remove hdependents hbyName hinstalled h
  obtain ⟨hnodup, hordered, hmem⟩ := dependentsFirst_mergeAll h.cascades
  rw [← hvictims] at hnodup hordered hmem
  refine ⟨p, w', hplan, hnodup, fun x => ?_, hordered⟩
  rw [hmem, ← List.map_uncurry_zip_eq_zipWith]
  simp only [List.mem_map, exists_exists_and_eq_and]
  exact exists_congr fun asked => and_congr_right fun _ => mem_cascadeOf

end Plan

/-- `tool` depends on `app` and on `lib`, and `app` on `lib`. -/
def toolEdges : List (String × String) := [("tool", "app"), ("tool", "lib"), ("app", "lib")]

/-- What is installed, and then what depends on `app` and what depends on `lib`. -/
def toolReplies : List Reply :=
  let entry name := Json.obj [("name", .str name), ("version", .str "1.0")]
  [.ok (.arr [entry "lib", entry "app", entry "tool"]), .ok (.arr [entry "tool"]),
    .ok (.arr [entry "tool", entry "app"])]

theorem flatDependents_tool :
    FlatDependents (edge toolEdges) "app" ["tool"] ∧
      FlatDependents (edge toolEdges) "lib" ["tool", "app"] := by
  have hcases : ∀ x y, edge toolEdges x y →
      x = "tool" ∧ y = "app" ∨ x = "tool" ∧ y = "lib" ∨ x = "app" ∧ y = "lib" := by
    intro x y h
    simpa [edge, toolEdges] using h
  constructor
  · refine ⟨by decide, ?_, by unfold DependentsFirst; decide, by decide⟩
    intro y hy x hxy
    rcases hcases x y hxy with ⟨rfl, rfl⟩ | ⟨rfl, rfl⟩ | ⟨rfl, rfl⟩ <;> simp at hy ⊢
  · refine ⟨by decide, ?_, by unfold DependentsFirst; decide, by decide⟩
    intro y hy x hxy
    rcases hcases x y hxy with ⟨rfl, rfl⟩ | ⟨rfl, rfl⟩ | ⟨rfl, rfl⟩ <;> simp at hy ⊢

/-- The cascades of `app` and `lib` overlap; `tool` goes first, and once. -/
theorem removal_of_app_and_lib :
    ∃ p w', (plan (graphEnv toolEdges toolReplies) .remove ["app", "lib"] {}).exec ⟨[], 0, []⟩ =
        (.ok (.report p), w') ∧ p.victims.Nodup ∧
      (∀ x, x ∈ p.victims ↔ ∃ asked ∈ ["app", "lib"].zip [["tool"], ["tool", "app"]],
        x = asked.1 ∨ x ∈ asked.2) ∧
      DependentsFirst (edge toolEdges) p.victims := by
  refine removal_dependents_first (m := [("tool", ⟨"1.0", ""⟩), ("app", ⟨"1.0", ""⟩),
    ("lib", ⟨"1.0", ""⟩)]) rfl rfl (by decide) ?_
  refine .cons ⟨_, _, rfl, rfl, by decide⟩ flatDependents_tool.1 ?_
  exact .cons ⟨_, _, rfl, rfl, by decide⟩ flatDependents_tool.2 .nil

end Logosctl.PackageOps
