import Mathlib.Data.List.Nodup
import Mathlib.Data.List.Perm.Basic
import Mathlib.Logic.Function.Basic

/-! Lists that are kept up to a wish by their keys alone: what is not wished for is taken out, what is missing is put in,
and what is there under a key of the wish is left as it is. -/

open scoped List

namespace Tending

variable {α κ ι : Type} {key : α → κ}

structure Wish (key : α → κ) where
  keys : List κ
  make : κ → α
  nodup : keys.Nodup
  made : ∀ k, key (make k) = k

namespace Wish
variable (wish : Wish key)

def goal : List α := wish.keys.map wish.make

theorem goal_keys : wish.goal.map key = wish.keys := by
  rw [goal, List.map_map]
  exact (List.map_congr_left fun k _ => wish.made k).trans (List.map_id _)

theorem goal_nodup : wish.goal.Nodup := by
  apply List.Nodup.of_map key
  rw [goal_keys]
  exact wish.nodup

theorem mem_goal {a : α} : a ∈ wish.goal ↔ key a ∈ wish.keys ∧ a = wish.make (key a) := by
  constructor
  · intro member
    obtain ⟨k, wished, rfl⟩ := List.mem_map.mp member
    rw [wish.made]
    exact ⟨wished, rfl⟩
  · rintro ⟨wished, same⟩
    exact List.mem_map.mpr ⟨key a, wished, same.symm⟩

theorem keys_of_goal {wish other : Wish key} (agree : other.goal ~ wish.goal) (k : κ) : k ∈ other.keys ↔ k ∈ wish.keys := by
  rw [← goal_keys, ← goal_keys]
  exact (agree.map key).mem_iff

variable [DecidableEq κ]

def missing (items : List α) : List κ := wish.keys.filter fun k => k ∉ items.map key

def stale (items : List α) : List α := items.filter fun a => key a ∉ wish.keys

def tend (items : List α) : List α := (items.filter fun a => key a ∈ wish.keys) ++ (wish.missing items).map wish.make

/-- What is there under the keys of the wish is there once, and as it would be put in. -/
structure Ready (items : List α) : Prop where
  once : ((items.filter fun a => key a ∈ wish.keys).map key).Nodup
  fits : ∀ a ∈ items, key a ∈ wish.keys → a = wish.make (key a)

variable {wish} {items : List α}

theorem tend_nil : wish.tend [] = wish.goal := by
  have all : wish.missing [] = wish.keys := List.filter_eq_self.mpr fun k _ => decide_eq_true List.not_mem_nil
  rw [tend, all, goal]
  rfl

theorem missing_keys : ((wish.missing items).map wish.make).map key = wish.missing items := by
  rw [List.map_map]
  exact (List.map_congr_left fun k _ => wish.made k).trans (List.map_id _)

theorem tend_nodup (ready : wish.Ready items) : ((wish.tend items).map key).Nodup := by
  rw [tend, List.map_append, missing_keys]
  refine List.nodup_append.mpr ⟨ready.once, wish.nodup.filter _, ?_⟩
  rintro k there _ lacking rfl
  obtain ⟨a, member, rfl⟩ := List.mem_map.mp there
  have absent := (List.mem_filter.mp lacking).2
  exact of_decide_eq_true absent (List.mem_map_of_mem (List.mem_filter.mp member).1)

theorem tend_perm_iff : wish.tend items ~ wish.goal ↔ wish.Ready items := by
  constructor
  · intro reached
    have keys := reached.map key
    rw [goal_keys] at keys
    have nodup := keys.nodup_iff.mpr wish.nodup
    rw [tend, List.map_append] at nodup
    refine ⟨nodup.of_append_left, fun a member wished => ?_⟩
    have left : a ∈ wish.tend items := List.mem_append_left _ (List.mem_filter.mpr ⟨member, decide_eq_true wished⟩)
    exact (wish.mem_goal.mp (reached.mem_iff.mp left)).2
  · intro ready
    refine (List.perm_ext_iff_of_nodup (List.Nodup.of_map key (tend_nodup ready)) wish.goal_nodup).mpr fun a => ?_
    rw [mem_goal]
    constructor
    · intro member
      rcases List.mem_append.mp member with there | put
      · obtain ⟨there, wished⟩ := List.mem_filter.mp there
        exact ⟨of_decide_eq_true wished, ready.fits a there (of_decide_eq_true wished)⟩
      · obtain ⟨k, lacking, rfl⟩ := List.mem_map.mp put
        rw [wish.made]
        exact ⟨(List.mem_filter.mp lacking).1, rfl⟩
    · rintro ⟨wished, same⟩
      by_cases there : key a ∈ items.map key
      · obtain ⟨b, member, alike⟩ := List.mem_map.mp there
        have fits := ready.fits b member (alike ▸ wished)
        rw [alike, ← same] at fits
        exact List.mem_append_left _ (List.mem_filter.mpr ⟨fits ▸ member, decide_eq_true wished⟩)
      · exact List.mem_append_right _ (List.mem_map.mpr ⟨key a, List.mem_filter.mpr ⟨wished, decide_eq_true there⟩, same.symm⟩)

section
variable (reached : items ~ wish.goal)
include reached

theorem none_stale : wish.stale items = [] :=
  List.filter_eq_nil_iff.mpr fun a member => by simpa using (wish.mem_goal.mp (reached.mem_iff.mp member)).1

theorem none_missing : wish.missing items = [] := by
  refine List.filter_eq_nil_iff.mpr fun k wished => ?_
  rw [decide_eq_true_eq, not_not, (reached.map key).mem_iff, goal_keys]
  exact wished

theorem tend_settled : wish.tend items = items := by
  have all : (items.filter fun a => key a ∈ wish.keys) = items :=
    List.filter_eq_self.mpr fun a member => decide_eq_true (wish.mem_goal.mp (reached.mem_iff.mp member)).1
  rw [tend, none_missing reached, all, List.map_nil, List.append_nil]

theorem ready_of_perm : wish.Ready items := by
  rw [← tend_perm_iff, tend_settled reached]
  exact reached

end

theorem kept_tend {other : Wish key} (agree : other.goal ~ wish.goal) :
    (items.filter fun a => key a ∈ wish.keys) <+ (other.tend items).filter fun a => key a ∈ wish.keys := by
  have same : (items.filter fun a => key a ∈ other.keys) = items.filter fun a => key a ∈ wish.keys :=
    List.filter_congr fun a _ => decide_eq_decide.mpr (keys_of_goal agree _)
  rw [tend, List.filter_append, same, List.filter_filter]
  simp only [Bool.and_self]
  exact List.sublist_append_left _ _

end Wish

open Wish

variable [DecidableEq κ] [DecidableEq ι]

structure Task (ι : Type) (key : α → κ) where
  place : ι
  wish : Wish key

variable {store : ι → List α} {tasks : List (Task ι key)}

def visit (store : ι → List α) (task : Task ι key) : ι → List α := Function.update store task.place (task.wish.tend (store task.place))

def run (store : ι → List α) (tasks : List (Task ι key)) : ι → List α := tasks.foldl visit store

def Agree (tasks : List (Task ι key)) : Prop :=
  ∀ t ∈ tasks, ∀ t' ∈ tasks, t.place = t'.place → t.wish.goal ~ t'.wish.goal

theorem visit_here (store : ι → List α) (task : Task ι key) : visit store task task.place = task.wish.tend (store task.place) :=
  Function.update_self ..

theorem visit_other (store : ι → List α) {task : Task ι key} {place : ι} (apart : place ≠ task.place) : visit store task place = store place :=
  Function.update_of_ne apart ..

theorem run_elsewhere {place : ι} (apart : ∀ t ∈ tasks, place ≠ t.place) : run store tasks place = store place := by
  induction tasks generalizing store with
  | nil => rfl
  | cons task rest ih =>
    rw [run, List.foldl_cons, ← run, ih fun t member => apart t (List.mem_cons_of_mem _ member)]
    exact visit_other _ (apart _ List.mem_cons_self)

theorem run_kept {place : ι} {wish : Wish key} (agree : ∀ t ∈ tasks, t.place = place → t.wish.goal ~ wish.goal) :
    ((store place).filter fun a => key a ∈ wish.keys) <+ run store tasks place := by
  suffices within : ((store place).filter fun a => key a ∈ wish.keys) <+ (run store tasks place).filter fun a => key a ∈ wish.keys from
    within.trans List.filter_sublist
  induction tasks generalizing store with
  | nil => exact List.Sublist.refl _
  | cons task rest ih =>
    refine .trans ?_ (ih fun t member => agree t (List.mem_cons_of_mem _ member))
    by_cases here : task.place = place
    · subst here
      rw [visit_here]
      exact kept_tend (agree task List.mem_cons_self rfl)
    · rw [visit_other _ fun same => here same.symm]

theorem run_reaches (agree : Agree tasks) (ready : ∀ t ∈ tasks, t.wish.Ready (store t.place)) :
    ∀ t ∈ tasks, run store tasks t.place ~ t.wish.goal := by
  induction tasks generalizing store with
  | nil => exact fun _ member => absurd member List.not_mem_nil
  | cons task rest ih =>
    have first : visit store task task.place ~ task.wish.goal := by
      rw [visit_here, tend_perm_iff]
      exact ready task List.mem_cons_self
    have later : ∀ t ∈ rest, run (visit store task) rest t.place ~ t.wish.goal := ih
      (fun t member t' member' => agree t (List.mem_cons_of_mem _ member) t' (List.mem_cons_of_mem _ member'))
      (fun t member => by
        by_cases here : t.place = task.place
        · rw [here]
          exact ready_of_perm (first.trans (agree task List.mem_cons_self t (List.mem_cons_of_mem _ member) here.symm))
        · rw [visit_other _ here]
          exact ready t (List.mem_cons_of_mem _ member))
    intro t member
    rcases List.mem_cons.mp member with rfl | among
    · by_cases again : ∃ t' ∈ rest, t'.place = t.place
      · obtain ⟨t', among, same⟩ := again
        have there := later t' among
        rw [same] at there
        exact there.trans (agree t' (List.mem_cons_of_mem _ among) t List.mem_cons_self same)
      · have alone : run (visit store t) rest t.place = visit store t t.place :=
          run_elsewhere fun t' among same => again ⟨t', among, same.symm⟩
        exact (List.Perm.of_eq alone).trans first
    · exact later t among

theorem run_reaches_iff : (∀ t ∈ tasks, run store tasks t.place ~ t.wish.goal) ↔ (∀ t ∈ tasks, t.wish.Ready (store t.place)) ∧ Agree tasks := by
  constructor
  · intro reached
    have agree : Agree tasks := fun t member t' member' same => by
      have there := reached t' member'
      rw [← same] at there
      exact (reached t member).symm.trans there
    refine ⟨fun t member => ?_, agree⟩
    have kept : ((store t.place).filter fun a => key a ∈ t.wish.keys) <+ run store tasks t.place :=
      run_kept fun t' member' same => agree t' member' t member same
    have keys := (reached t member).map key
    rw [goal_keys] at keys
    refine ⟨(kept.map key).nodup (keys.nodup_iff.mpr t.wish.nodup), fun a there wished => ?_⟩
    have stays := kept.subset (List.mem_filter.mpr ⟨there, decide_eq_true wished⟩)
    exact (t.wish.mem_goal.mp ((reached t member).mem_iff.mp stays)).2
  · exact fun ⟨ready, agree⟩ => run_reaches agree ready

end Tending
