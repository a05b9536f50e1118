import Mathlib.Data.List.Basic
import Mathlib.Data.List.Nodup

/-! Items in buckets. To read some buckets one after another is to take the items that are in them,
in another order; and a loop over buckets that may be left early gathers what each of them adds. -/

open scoped List

namespace Buckets

variable {α β σ : Type}

theorem perm [DecidableEq β] (key : α → β) {keys : List β} (nodup : keys.Nodup) (items : List α) :
    (keys.flatMap fun k => items.filter fun item => key item = k).Perm (items.filter fun item => key item ∈ keys) := by
  induction keys with
  | nil => simp
  | cons k keys ih =>
    obtain ⟨apart, rest⟩ := List.nodup_cons.mp nodup
    have split := List.filter_append_perm (fun item => key item = k) (items.filter fun item => key item ∈ k :: keys)
    have first : (items.filter fun item => key item ∈ k :: keys).filter (fun item => key item = k) = items.filter fun item => key item = k := by
      rw [List.filter_filter]
      apply List.filter_congr
      intro item _
      by_cases same : key item = k <;> simp [same]
    have others : (items.filter fun item => key item ∈ k :: keys).filter (fun item => !decide (key item = k)) =
        items.filter fun item => key item ∈ keys := by
      rw [List.filter_filter]
      apply List.filter_congr
      intro item _
      by_cases same : key item = k
      · simp [same, apart]
      · simp [same]
    rw [first, others] at split
    rw [List.flatMap_cons]
    exact ((ih rest).append_left _).trans split

theorem nodup {items : List β} {bucket : β → List α} (tag : α → β) (distinct : items.Nodup) (each : ∀ item ∈ items, (bucket item).Nodup)
    (tagged : ∀ item ∈ items, ∀ a ∈ bucket item, tag a = item) : (items.flatMap bucket).Nodup := by
  rw [List.nodup_flatMap]
  refine ⟨each, distinct.imp_of_mem fun {i j} here there apart a first second => apart ?_⟩
  rw [← tagged i here a first, tagged j there a second]

theorem filter_flatMap (keep : α → Bool) (items : List α) : items.filter keep = items.flatMap fun item => if keep item = true then [item] else [] := by
  induction items with
  | nil => rfl
  | cons item items ih =>
    rw [List.flatMap_cons, List.filter_cons, ih]
    split <;> rfl

def settled : Except σ σ → σ
  | .ok s => s
  | .error s => s

variable {step : σ → α → Except σ σ}

theorem gathers (view : σ → List β) (part : α → List β) (items : List α)
    (each : ∀ item ∈ items, ∀ s after, step s item = .ok after → view after = view s ++ part item) {s after : σ}
    (done : items.foldlM step s = .ok after) : view after = view s ++ items.flatMap part := by
  induction items generalizing s with
  | nil =>
    cases done
    simp
  | cons item items ih =>
    rw [List.foldlM_cons] at done
    cases first : step s item with
    | error stopped =>
      rw [first] at done
      cases done
    | ok middle =>
      rw [first] at done
      have rest := ih (fun other member => each other (List.mem_cons_of_mem _ member)) done
      rw [rest, each item List.mem_cons_self s middle first, List.flatMap_cons, List.append_assoc]

theorem keeps (invariant : σ → Prop) (items : List α)
    (each : ∀ item ∈ items, ∀ s, invariant s → invariant (settled (step s item))) {s : σ} (held : invariant s) :
    invariant (settled (items.foldlM step s)) := by
  induction items generalizing s with
  | nil => exact held
  | cons item items ih =>
    have first := each item List.mem_cons_self s held
    rw [List.foldlM_cons]
    cases stepped : step s item with
    | error stopped =>
      rw [stepped] at first
      exact first
    | ok middle =>
      rw [stepped] at first
      exact ih (fun other member => each other (List.mem_cons_of_mem _ member)) first

end Buckets
