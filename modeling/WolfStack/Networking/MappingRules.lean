import WolfStack.Networking.IpMappings

/-! Which mappings leave each other's rules alone? A chain is followed for one rule at a
time: how often is it there after each operation? -/

namespace Networking
open Auth Router Purges

variable {host : Host} {m : IpMapping} {chain : Chain} {t : Tables} {rule spec : String} {list : List String} {markers : List String}
variable {room : Nat} {c : Command} {cs : List Command}

def Host.put (host : Host) (cs : List Command) (chain : Chain) : List String :=
  (cs.filter fun c => c.chain = chain).filterMap fun c => (host.denotes c.args).toOption

def Host.own (host : Host) (m : IpMapping) (chain : Chain) : List String :=
  match host.commands m with
  | .ok cs => host.put cs chain
  | .error _ => []

def IpMapping.purges (m : IpMapping) (chain : Chain) (spec : String) : Bool :=
  lineMatches chain (m.markers chain) spec || lineMatches chain [m.vipComment] spec

def Host.step (host : Host) (m : IpMapping) (chain : Chain) : Step String :=
  ⟨m.purges chain, (host.backends m).isSome, host.own m chain⟩

def Host.standard (host : Host) (m : IpMapping) (chain : Chain) : List String :=
  match m.standardCommands (host.gateway.getD "") with
  | .ok cs => host.put cs chain
  | .error _ => []

def Host.removes (host : Host) (m : IpMapping) (chain : Chain) (spec : String) : Bool :=
  lineMatches chain [m.vipComment] spec || decide (spec ∈ host.standard m chain)

def Host.Listed (host : Host) (spec : String) : Prop := ∃ args, host.denotes args = .ok spec

/-- The words of its listing denote a rule, and those of no other listing do. -/
def Host.ReadsBack (host : Host) (rule : String) : Prop :=
  ∀ spec, host.Listed spec → (host.retyped spec = some rule ↔ spec = rule)

structure Fits (host : Host) (list : List String) (room : Nat) : Prop where
  listed : ∀ spec ∈ list, host.Listed spec
  few : list.length + room ≤ 200000

def Host.swept (host : Host) (chain : Chain) (markers : List String) (list : List String) : List String :=
  (sweep host.retyped ((list.filter (lineMatches chain markers)).mergeSort fun a b => decide (a ≤ b)).dedup 200000 list).2

theorem swept_fits (fits : Fits host list room) : Fits host (host.swept chain markers list) room where
  listed _ member := fits.listed _ (sweep_mem member)
  few := Nat.le_trans (Nat.add_le_add_right sweep_length room) fits.few

theorem swept_count (fits : Fits host list room) (back : host.ReadsBack rule) :
    (host.swept chain markers list).count rule = if lineMatches chain markers rule then 0 else list.count rule := by
  have among : ∀ spec, spec ∈ ((list.filter (lineMatches chain markers)).mergeSort fun a b => decide (a ≤ b)).dedup ↔
      spec ∈ list ∧ lineMatches chain markers spec = true := by
    intro spec
    rw [List.mem_dedup, List.mem_mergeSort, List.mem_filter]
  have itself : ∀ spec ∈ list, host.retyped spec = some rule → spec = rule :=
    fun spec member denoted => (back spec (fits.listed spec member)).mp denoted
  unfold Host.swept
  split
  · rename_i matched
    by_cases there : rule ∈ list
    · apply sweep_clears (Nat.le_of_add_right_le fits.few)
      exact ⟨rule, (among rule).mpr ⟨there, matched⟩, (back rule (fits.listed rule there)).mpr rfl⟩
    · rw [sweep_spares]
      · exact List.count_eq_zero.mpr there
      · intro spec member denoted
        have held := ((among spec).mp member).1
        exact there (itself spec held denoted ▸ held)
  · rename_i unmatched
    apply sweep_spares
    intro spec member denoted
    obtain ⟨held, matched⟩ := (among spec).mp member
    exact unmatched (itself spec held denoted ▸ matched)

theorem purgeEach_at (all : Chain → List String) : [Chain.prerouting, .output, .postrouting, .forward].foldl
    (fun t chain => host.purgeMatchingLines chain (all chain) t) t chain = host.swept chain (all chain) (t chain) := by
  cases chain <;> rfl

theorem removeRulesByComment_at (comment : String) :
    host.removeRulesByComment comment t chain = host.swept chain [comment] (t chain) := purgeEach_at fun _ => [comment]

theorem purgeMappingRules_at : host.purgeMappingRules m t chain =
    host.swept chain [m.vipComment] (host.swept chain (m.markers chain) (t chain)) := by
  rw [Host.purgeMappingRules, removeRulesByComment_at, purgeEach_at]

theorem purgeMappingRules_fits (fits : Fits host (t chain) room) : Fits host (host.purgeMappingRules m t chain) room := by
  rw [purgeMappingRules_at]
  exact swept_fits (swept_fits fits)

theorem purgeMappingRules_count (fits : Fits host (t chain) room) (back : host.ReadsBack rule) :
    (host.purgeMappingRules m t chain).count rule = if m.purges chain rule then 0 else (t chain).count rule := by
  rw [purgeMappingRules_at, swept_count (swept_fits fits) back, swept_count fits back, IpMapping.purges]
  cases lineMatches chain (m.markers chain) rule <;> cases lineMatches chain [m.vipComment] rule <;> rfl

theorem put_cons (rest : List Command) : host.put (c :: rest) chain =
    if c.chain = chain then (host.denotes c.args).toOption.toList ++ host.put rest chain else host.put rest chain := by
  unfold Host.put
  by_cases here : c.chain = chain
  · rw [if_pos here, List.filter_cons, if_pos (decide_eq_true here)]
    cases denoted : host.denotes c.args with
    | error stderr => exact List.filterMap_cons_none (congrArg Except.toOption denoted)
    | ok spec => exact List.filterMap_cons_some (congrArg Except.toOption denoted)
  · rw [if_neg here, List.filter_cons, if_neg (by simpa using here)]

theorem run_other (elsewhere : c.chain ≠ chain) : (host.run c t).2 chain = t chain := by
  unfold Host.run
  split
  · rfl
  · split
    · rfl
    · exact Function.update_of_ne (Ne.symm elsewhere) _ _

theorem run_here (denoted : host.denotes c.args = .ok spec) : (host.run c t).2 c.chain =
    if c.checked ∧ spec ∈ t c.chain then t c.chain else if c.top then spec :: t c.chain else t c.chain ++ [spec] := by
  unfold Host.run
  rw [denoted]
  dsimp only
  split
  · rfl
  · exact Function.update_self _ _ _

theorem run_fits (fits : Fits host (t chain) (room + 1)) : Fits host ((host.run c t).2 chain) room := by
  obtain ⟨listed, few⟩ := fits
  by_cases here : c.chain = chain
  · subst here
    cases denoted : host.denotes c.args with
    | error stderr =>
      have same : (host.run c t).2 = t := by
        rw [Host.run, denoted]
      rw [same]
      exact ⟨listed, by omega⟩
    | ok spec =>
      rw [run_here denoted]
      have added : host.Listed spec := ⟨c.args, denoted⟩
      split
      · exact ⟨listed, by omega⟩
      · split
        · exact ⟨List.forall_mem_cons.mpr ⟨added, listed⟩, by rw [List.length_cons]; omega⟩
        · refine ⟨List.forall_mem_append.mpr ⟨listed, List.forall_mem_singleton.mpr added⟩, ?_⟩
          rw [List.length_append, List.length_singleton]
          omega
  · rw [run_other here]
    exact ⟨listed, by omega⟩

theorem runAll_cons (rest : List Command) (ran : (host.runAll (c :: rest) t).1 = .ok ()) :
    (∃ spec, host.denotes c.args = .ok spec) ∧ host.runAll (c :: rest) t = host.runAll rest (host.run c t).2 := by
  cases denoted : host.denotes c.args with
  | error stderr =>
    rw [Host.runAll, Host.run, denoted] at ran
    cases ran
  | ok spec =>
    refine ⟨⟨spec, rfl⟩, ?_⟩
    have done : (host.run c t).1 = .ok () := by
      rw [Host.run, denoted]
      dsimp only
      split <;> rfl
    rw [Host.runAll, ← Prod.mk.eta (p := host.run c t), done]

theorem runAll_fits (ran : (host.runAll cs t).1 = .ok ()) (fits : Fits host (t chain) (room + (host.put cs chain).length)) :
    Fits host ((host.runAll cs t).2 chain) room := by
  induction cs generalizing t with
  | nil => exact fits
  | cons c rest ih =>
    obtain ⟨⟨spec, denoted⟩, onward⟩ := runAll_cons rest ran
    rw [onward] at ran ⊢
    apply ih ran
    rw [put_cons, denoted] at fits
    by_cases here : c.chain = chain
    · rw [if_pos here] at fits
      apply run_fits
      simpa [Except.toOption, Nat.add_assoc] using fits
    · rw [if_neg here] at fits
      rw [run_other here]
      exact fits

theorem runAll_checked (checked : ∀ c ∈ cs, c.checked = true) (ran : (host.runAll cs t).1 = .ok ()) :
    ((host.runAll cs t).2 chain).count rule =
      if rule ∈ host.put cs chain then max ((t chain).count rule) 1 else (t chain).count rule := by
  induction cs generalizing t with
  | nil => rfl
  | cons c rest ih =>
    obtain ⟨⟨spec, denoted⟩, onward⟩ := runAll_cons rest ran
    rw [onward] at ran ⊢
    rw [ih (fun c member => checked c (List.mem_cons_of_mem _ member)) ran, put_cons, denoted]
    by_cases here : c.chain = chain
    · subst here
      have added : ((host.run c t).2 c.chain).count rule =
          if rule = spec then max ((t c.chain).count rule) 1 else (t c.chain).count rule := by
        rw [run_here denoted, checked c List.mem_cons_self]
        by_cases same : rule = spec
        · subst same
          rw [if_pos rfl]
          by_cases there : rule ∈ t c.chain
          · rw [if_pos ⟨rfl, there⟩]
            exact (Nat.max_eq_left (List.count_pos_iff.mpr there)).symm
          · rw [if_neg (fun both => there both.2), List.count_eq_zero.mpr there]
            split <;> simp [List.count_eq_zero.mpr there]
        · rw [if_neg same]
          split
          · rfl
          · split <;> simp [Ne.symm same]
      rw [added, if_pos rfl]
      simp only [Except.toOption, Option.toList_some, List.singleton_append, List.mem_cons]
      by_cases same : rule = spec
      · simp [same]
      · simp [same]
    · rw [if_neg here, run_other here]

theorem runAll_again (again : ∀ c ∈ cs, c.checked = false) (ran : (host.runAll cs t).1 = .ok ()) :
    ((host.runAll cs t).2 chain).count rule = (t chain).count rule + (host.put cs chain).count rule := by
  induction cs generalizing t with
  | nil => rfl
  | cons c rest ih =>
    obtain ⟨⟨spec, denoted⟩, onward⟩ := runAll_cons rest ran
    rw [onward] at ran ⊢
    rw [ih (fun c member => again c (List.mem_cons_of_mem _ member)) ran, put_cons, denoted]
    by_cases here : c.chain = chain
    · subst here
      have added : ((host.run c t).2 c.chain).count rule = (t c.chain).count rule + [spec].count rule := by
        rw [run_here denoted, again c List.mem_cons_self, if_neg (fun both => Bool.false_ne_true both.1)]
        split
        · rw [← List.singleton_append, List.count_append, Nat.add_comm]
        · rw [List.count_append]
      rw [added, if_pos rfl]
      simp only [Except.toOption, Option.toList_some, List.count_append, Nat.add_assoc]
    · rw [if_neg here, run_other here]

theorem quartet_checked {gatewayIp target : String} {src dest : List String} :
    ∀ c ∈ m.quartet gatewayIp src dest target, c.checked = true := by
  intro c member
  simp only [IpMapping.quartet, List.mem_cons, List.not_mem_nil, or_false] at member
  rcases member with rfl | rfl | rfl | rfl <;> rfl

theorem standardCommands_checked {gatewayIp : String} (all : m.standardCommands gatewayIp = .ok cs) : ∀ c ∈ cs, c.checked = true := by
  unfold IpMapping.standardCommands at all
  split at all
  · cases sp : parsePortList (m.ports.getD "") with
    | error e => simp [sp, bind, Except.bind] at all
    | ok spList =>
      cases dp : parsePortList (m.destPorts.getD "") with
      | error e => simp [sp, dp, bind, Except.bind] at all
      | ok dpList =>
        simp only [sp, dp, bind, Except.bind, pure, Except.pure, Except.ok.injEq] at all
        subst all
        intro c member
        obtain ⟨pair, -, among⟩ := List.mem_flatMap.mp member
        exact quartet_checked c among
  · simp only [pure, Except.pure, Except.ok.injEq] at all
    subst all
    exact quartet_checked

theorem vipCommands_again {backends : List String} {lbPolicy gatewayIp : String} :
    ∀ c ∈ host.vipCommands m backends lbPolicy gatewayIp, c.checked = false := by
  intro c member
  simp only [Host.vipCommands, List.mem_append, List.mem_map, List.mem_flatMap, List.mem_cons, List.not_mem_nil, or_false] at member
  obtain (⟨-, -, rfl⟩ | ⟨-, -, rfl⟩) | ⟨-, -, rfl | rfl⟩ := member <;> rfl

theorem applyMappingRules_ok (enabled : m.enabled = true) (applied : (host.applyMappingRules m t).1 = .ok ()) :
    ∃ cs, host.commands m = .ok cs ∧ (host.runAll cs (host.purgeMappingRules m t)).1 = .ok () ∧
      host.applyMappingRules m t = host.runAll cs (host.purgeMappingRules m t) := by
  unfold Host.applyMappingRules at *
  rw [enabled] at *
  cases all : host.commands m with
  | error e =>
    rw [all] at applied
    cases applied
  | ok cs =>
    rw [all] at applied
    exact ⟨cs, rfl, applied, rfl⟩

theorem applied_fits (enabled : m.enabled = true) (applied : (host.applyMappingRules m t).1 = .ok ())
    (fits : Fits host (t chain) (room + (host.own m chain).length)) : Fits host ((host.applyMappingRules m t).2 chain) room := by
  obtain ⟨cs, all, ran, same⟩ := applyMappingRules_ok enabled applied
  rw [Host.own, all] at fits
  rw [same]
  exact runAll_fits ran (purgeMappingRules_fits fits)

theorem applied_count (enabled : m.enabled = true) (applied : (host.applyMappingRules m t).1 = .ok ())
    (fits : Fits host (t chain) room) (back : host.ReadsBack rule) :
    ((host.applyMappingRules m t).2 chain).count rule = (host.step m chain).count rule ((t chain).count rule) := by
  obtain ⟨cs, all, ran, same⟩ := applyMappingRules_ok enabled applied
  have purged := @purgeMappingRules_count host m chain t rule room fits back
  rw [same, Step.count]
  simp only [Host.step, Host.own, all]
  unfold Host.commands at all
  cases gateway : host.gateway with
  | none =>
    rw [gateway] at all
    cases all
  | some gatewayIp =>
    rw [gateway] at all
    cases vip : host.backends m with
    | none =>
      rw [vip] at all
      rw [runAll_checked (standardCommands_checked all) ran, purged]
      rfl
    | some found =>
      rw [vip] at all
      obtain rfl := Except.ok.inj all
      rw [runAll_again vipCommands_again ran, purged]
      rfl

variable {mappings before after : List IpMapping}

def Host.applyOne (host : Host) (at_ : Nat × Tables) (m : IpMapping) : Nat × Tables :=
  if !m.enabled then at_
  else match host.applyMappingRules m at_.2 with
    | (.ok (), t) => (at_.1, t)
    | (.error _, t) => (at_.1 + 1, t)

theorem applyOne_fails {failed : Nat} : failed ≤ (host.applyOne (failed, t) m).1 := by
  unfold Host.applyOne
  split
  · exact Nat.le_refl _
  · split
    · exact Nat.le_refl _
    · exact Nat.le_succ _

theorem failed_mono {failed : Nat} : failed ≤ (mappings.foldl host.applyOne (failed, t)).1 := by
  induction mappings generalizing failed t with
  | nil => exact Nat.le_refl _
  | cons m rest ih => exact Nat.le_trans applyOne_fails ih

/-- The rules that enabled mappings have in a chain, as often as they have them. -/
def Host.total (host : Host) (mappings : List IpMapping) (chain : Chain) : Nat :=
  ((mappings.filter IpMapping.enabled).map fun m => (host.own m chain).length).sum

def Host.steps (host : Host) (mappings : List IpMapping) (chain : Chain) : List (Step String) :=
  (mappings.filter IpMapping.enabled).map fun m => host.step m chain

theorem applied_all {failed : Nat} (applied : (mappings.foldl host.applyOne (failed, t)).1 = failed)
    (fits : Fits host (t chain) (room + host.total mappings chain)) :
    Fits host ((mappings.foldl host.applyOne (failed, t)).2 chain) room ∧ (host.ReadsBack rule →
      ((mappings.foldl host.applyOne (failed, t)).2 chain).count rule =
        countAfter (host.steps mappings chain) rule ((t chain).count rule)) := by
  induction mappings generalizing t with
  | nil => exact ⟨fits, fun _ => rfl⟩
  | cons m rest ih =>
    rw [List.foldl_cons] at applied ⊢
    cases enabled : m.enabled with
    | false =>
      have skipped : host.applyOne (failed, t) m = (failed, t) := by simp [Host.applyOne, enabled]
      rw [skipped] at applied ⊢
      rw [Host.steps, Host.total, List.filter_cons_of_neg (by simp [enabled])] at *
      exact ih applied fits
    | true =>
      rw [Host.total, List.filter_cons_of_pos (by exact enabled), List.map_cons, List.sum_cons, ← Host.total] at fits
      rw [Host.steps, List.filter_cons_of_pos (by exact enabled), List.map_cons, ← Host.steps]
      have fitting : Fits host (t chain) (room + host.total rest chain + (host.own m chain).length) :=
        ⟨fits.listed, by have few := fits.few; omega⟩
      cases ran : (host.applyMappingRules m t).1 with
      | error e =>
        have counted : host.applyOne (failed, t) m = (failed + 1, (host.applyMappingRules m t).2) := by
          unfold Host.applyOne
          dsimp only
          rw [enabled, ← Prod.mk.eta (p := host.applyMappingRules m t), ran]
          rfl
        rw [counted] at applied
        have more := @failed_mono host (host.applyMappingRules m t).2 rest (failed + 1)
        omega
      | ok done =>
        have moved : host.applyOne (failed, t) m = (failed, (host.applyMappingRules m t).2) := by
          unfold Host.applyOne
          dsimp only
          rw [enabled, ← Prod.mk.eta (p := host.applyMappingRules m t), ran]
          rfl
        rw [moved] at applied ⊢
        obtain ⟨fits, counted⟩ := ih applied (applied_fits enabled ran fitting)
        refine ⟨fits, fun back => ?_⟩
        rw [counted back, applied_count enabled ran fitting back]
        rfl

theorem applied_after {start : Tables} (listed : ∀ spec ∈ start chain, host.Listed spec)
    (few : (start chain).length + host.total mappings chain + 1 ≤ 200000) (applied : (host.applyIpMappings mappings start).1 = 0) :
    Fits host ((host.applyIpMappings mappings start).2 chain) 0 ∧ ∀ rule, host.ReadsBack rule →
      ((host.applyIpMappings mappings start).2 chain).count rule =
        countAfter (host.steps mappings chain) rule ((host.ensureEstablished start chain).count rule) := by
  have room : Fits host (start chain) (0 + host.total mappings chain + 1) := ⟨listed, by omega⟩
  have established : Fits host (host.ensureEstablished start chain) (0 + host.total mappings chain) := run_fits room
  exact ⟨(@applied_all host _ _ "" 0 _ 0 applied established).1, fun rule => (applied_all applied established).2⟩

def Host.takes (host : Host) (m : IpMapping) : Bool :=
  match host.commands m with
  | .ok cs => cs.all fun c => (host.denotes c.args).isOk
  | .error _ => false

theorem runAll_ok (taken : ∀ c ∈ cs, (host.denotes c.args).isOk = true) : (host.runAll cs t).1 = .ok () := by
  induction cs generalizing t with
  | nil => rfl
  | cons c rest ih =>
    have later := fun t => @ih t fun c member => taken c (List.mem_cons_of_mem _ member)
    have first := taken c List.mem_cons_self
    cases denoted : host.denotes c.args with
    | error stderr =>
      rw [denoted] at first
      cases first
    | ok spec =>
      rw [Host.runAll, Host.run, denoted]
      dsimp only
      split
      · rename_i t ran
        exact later t
      · rename_i e t ran
        split at ran <;> cases ran

theorem applied_ok (taken : host.takes m = true) : (host.applyMappingRules m t).1 = .ok () := by
  unfold Host.takes at taken
  unfold Host.applyMappingRules
  split
  · rfl
  · dsimp only
    split at taken
    · rename_i cs all
      rw [all]
      exact runAll_ok (List.all_eq_true.mp taken)
    · cases taken

theorem runAll_takes (ran : (host.runAll cs t).1 = .ok ()) : ∀ c ∈ cs, (host.denotes c.args).isOk = true := by
  induction cs generalizing t with
  | nil => exact fun _ member => absurd member List.not_mem_nil
  | cons c rest ih =>
    rw [Host.runAll, Host.run] at ran
    cases denoted : host.denotes c.args with
    | error stderr =>
      rw [denoted] at ran
      cases ran
    | ok spec =>
      refine List.forall_mem_cons.mpr ⟨by rw [denoted]; rfl, ?_⟩
      rw [denoted] at ran
      dsimp only at ran
      split at ran
      · exact ih ran
      · rename_i e t failed
        split at failed <;> cases failed

theorem applied_ok_iff : (host.applyMappingRules m t).1 = .ok () ↔ m.enabled = false ∨ host.takes m = true := by
  constructor
  · intro applied
    cases enabled : m.enabled with
    | false => exact .inl rfl
    | true =>
      obtain ⟨cs, all, ran, _⟩ := applyMappingRules_ok enabled applied
      right
      rw [Host.takes, all]
      exact List.all_eq_true.mpr (runAll_takes ran)
  · rintro (disabled | taken)
    · rw [Host.applyMappingRules, disabled]
      rfl
    · exact applied_ok taken

theorem applied_zero (taken : ∀ n ∈ mappings, host.takes n = true) : (host.applyIpMappings mappings t).1 = 0 := by
  have each : ∀ (list : List IpMapping), (∀ n ∈ list, host.takes n = true) → ∀ t, (list.foldl host.applyOne (0, t)).1 = 0 := by
    intro list
    induction list with
    | nil => exact fun _ _ => rfl
    | cons m rest ih =>
      intro taken t
      have first := @applied_ok host m t (taken m List.mem_cons_self)
      have moved : (host.applyOne (0, t) m).1 = 0 := by
        unfold Host.applyOne
        split
        · rfl
        · rw [← Prod.mk.eta (p := host.applyMappingRules m t), first]
      rw [List.foldl_cons, ← Prod.mk.eta (p := host.applyOne (0, t) m), moved]
      exact ih (fun n member => taken n (List.mem_cons_of_mem _ member)) _
  exact each mappings taken _

theorem delete_at : host.delete t c chain = if c.chain = chain then (host.denotes c.args).toOption.toList.foldl List.erase (t chain) else t chain := by
  unfold Host.delete
  by_cases here : c.chain = chain
  · subst here
    rw [if_pos rfl]
    cases denoted : host.denotes c.args with
    | error stderr => rfl
    | ok spec => exact Function.update_self _ _ _
  · rw [if_neg here]
    cases host.denotes c.args with
    | error stderr => rfl
    | ok spec => exact Function.update_of_ne (Ne.symm here) _ _

theorem deletes_at : cs.foldl host.delete t chain = (host.put cs chain).foldl List.erase (t chain) := by
  induction cs generalizing t with
  | nil => rfl
  | cons c rest ih =>
    rw [List.foldl_cons, ih, delete_at, put_cons]
    split
    · rw [List.foldl_append]
    · rfl

theorem erased_count {specs : List String} : (specs.foldl List.erase list).count rule = list.count rule - specs.count rule := by
  induction specs generalizing list with
  | nil => rfl
  | cons spec rest ih =>
    rw [List.foldl_cons, ih, List.count_erase, List.count_cons]
    by_cases same : spec = rule
    · simp [same]
      omega
    · simp [same]

theorem erased_fits {specs : List String} (fits : Fits host list room) : Fits host (specs.foldl List.erase list) room := by
  induction specs generalizing list with
  | nil => exact fits
  | cons spec rest ih =>
    apply ih
    constructor
    · intro other member
      exact fits.listed other (List.mem_of_mem_erase member)
    · exact Nat.le_trans (Nat.add_le_add_right List.length_erase_le room) fits.few

theorem removeMappingRules_at : host.removeMappingRules m t chain =
    (host.standard m chain).foldl List.erase (host.swept chain [m.vipComment] (t chain)) := by
  unfold Host.removeMappingRules Host.standard
  cases m.standardCommands (host.gateway.getD "") with
  | error e => exact removeRulesByComment_at _
  | ok cs =>
    have swept : host.removeRulesByComment m.vipComment t chain = host.swept chain [m.vipComment] (t chain) := removeRulesByComment_at _
    rw [← swept]
    exact deletes_at

theorem erased_length {specs : List String} : (specs.foldl List.erase list).length ≤ list.length := by
  induction specs generalizing list with
  | nil => exact Nat.le_refl _
  | cons spec rest ih => exact Nat.le_trans ih List.length_erase_le

theorem erased_absent {specs : List String} (absent : ∀ spec ∈ specs, spec ∉ list) : specs.foldl List.erase list = list := by
  induction specs with
  | nil => rfl
  | cons spec rest ih =>
    obtain ⟨first, later⟩ := List.forall_mem_cons.mp absent
    rw [List.foldl_cons, List.erase_of_not_mem first]
    exact ih later

theorem erased_same {specs : List String} (same : list.length ≤ (specs.foldl List.erase list).length) : ∀ spec ∈ specs, spec ∉ list := by
  induction specs with
  | nil => exact fun _ member => absurd member List.not_mem_nil
  | cons spec rest ih =>
    rw [List.foldl_cons] at same
    have first : spec ∉ list := by
      intro there
      have fewer := List.length_erase_of_mem there
      have some_ := List.length_pos_of_mem there
      have less := Nat.le_trans same erased_length
      omega
    rw [List.erase_of_not_mem first] at same
    exact List.forall_mem_cons.mpr ⟨first, ih same⟩

/-- None of the rules that removing the mapping looks for is in the tables. -/
def Host.Bare (host : Host) (m : IpMapping) (t : Tables) : Prop :=
  (∀ chain, ∀ spec ∈ t chain, lineMatches chain [m.vipComment] spec = true → ∀ rule, host.retyped spec = some rule → rule ∉ t chain) ∧
    ∀ chain, ∀ rule ∈ host.standard m chain, rule ∉ t chain

theorem swept_same_iff : list.length ≤ (host.swept chain markers list).length ↔
    ∀ spec ∈ list, lineMatches chain markers spec = true → ∀ rule, host.retyped spec = some rule → rule ∉ list := by
  rw [Host.swept, sweep_same_iff]
  simp only [List.mem_dedup, List.mem_mergeSort, List.mem_filter, and_imp]

theorem swept_absent (absent : ∀ spec ∈ list, lineMatches chain markers spec = true → ∀ rule, host.retyped spec = some rule → rule ∉ list) :
    host.swept chain markers list = list := by
  apply sweep_absent
  simp only [List.mem_dedup, List.mem_mergeSort, List.mem_filter, and_imp]
  exact absent

/-- Removing a mapping changes nothing exactly if none of its rules is there. -/
theorem removeMappingRules_same_iff : host.removeMappingRules m t = t ↔ host.Bare m t := by
  constructor
  · intro same
    have whole : ∀ chain, (host.standard m chain).foldl List.erase (host.swept chain [m.vipComment] (t chain)) = t chain :=
      fun chain => removeMappingRules_at.symm.trans (congrFun same chain)
    have unmarked : ∀ chain, ∀ spec ∈ t chain, lineMatches chain [m.vipComment] spec = true →
        ∀ rule, host.retyped spec = some rule → rule ∉ t chain := by
      intro chain
      apply swept_same_iff.mp
      have left := congrArg List.length (whole chain)
      exact Nat.le_trans (Nat.le_of_eq left.symm) erased_length
    refine ⟨unmarked, fun chain => erased_same ?_⟩
    have left := whole chain
    rw [swept_absent (unmarked chain)] at left
    rw [left]
  · intro ⟨unmarked, unlisted⟩
    funext chain
    rw [removeMappingRules_at, swept_absent (unmarked chain)]
    exact erased_absent (unlisted chain)

/-- What becomes of the tables when one mapping's rules are put in the place of another's. -/
def Host.replaced (host : Host) (old new : IpMapping) (t : Tables) : Tables :=
  (host.applyMappingRules new (host.removeMappingRules old t)).2

theorem removed_count (fits : Fits host (t chain) room) (back : host.ReadsBack rule) (once : (t chain).count rule = 1) :
    (host.removeMappingRules m t chain).count rule = if host.removes m chain rule then 0 else 1 := by
  rw [removeMappingRules_at, erased_count, swept_count fits back, once, Host.removes]
  cases lineMatches chain [m.vipComment] rule with
  | true => rw [if_pos rfl, Bool.true_or, if_pos rfl, Nat.zero_sub]
  | false =>
    rw [Bool.false_or, if_neg Bool.false_ne_true]
    by_cases listed : rule ∈ host.standard m chain
    · rw [if_pos (decide_eq_true listed)]
      exact Nat.sub_eq_zero_of_le (List.count_pos_iff.mpr listed)
    · rw [if_neg (by simpa using listed), List.count_eq_zero.mpr listed]

theorem removed_fits (fits : Fits host (t chain) room) : Fits host (host.removeMappingRules m t chain) room := by
  rw [removeMappingRules_at]
  exact erased_fits (swept_fits fits)

/-! ### Mappings side by side -/

structure Lists (host : Host) (m : IpMapping) : Prop where
  back : ∀ chain, ∀ rule ∈ host.own m chain, host.ReadsBack rule
  comment : ∀ args rule, host.denotes args = .ok rule → ["--comment", m.vipComment] <:+: args → contains rule m.vipComment = true

/-- What is to hold once mappings have been applied, and when the one in the middle is then
purged, removed, or updated. -/
structure Undisturbed (host : Host) (start : Tables) (before : List IpMapping) (m : IpMapping) (after : List IpMapping) (e : Edit) : Prop where
  once : ∀ n ∈ before ++ m :: after, n.enabled = true → ∀ chain, ∀ rule ∈ host.own n chain,
    ((host.applyIpMappings (before ++ m :: after) start).2 chain).count rule = 1
  purging : ∀ n ∈ before ++ after, n.enabled = true → ∀ chain, ∀ rule ∈ host.own n chain,
    rule ∈ host.purgeMappingRules m (host.applyIpMappings (before ++ m :: after) start).2 chain
  removing : ∀ n ∈ before ++ after, n.enabled = true → ∀ chain, ∀ rule ∈ host.own n chain,
    rule ∈ (host.removeIpMapping (before ++ m :: after) m.id (host.applyIpMappings (before ++ m :: after) start).2).2 chain
  updating : ∀ n ∈ before ++ after, n.enabled = true → ∀ chain, ∀ rule ∈ host.own n chain,
    rule ∈ (host.updateIpMapping (before ++ m :: after) m.id e (host.applyIpMappings (before ++ m :: after) start).2).2 chain

structure Apart (host : Host) (start : Tables) (before : List IpMapping) (m : IpMapping) (after : List IpMapping) (e : Edit) : Prop where
  settles : ∀ n ∈ before ++ m :: after, n.enabled = true → ∀ chain, ∀ rule ∈ host.own n chain,
    Settles (host.steps (before ++ m :: after) chain) rule ((host.ensureEstablished start chain).count rule)
  purged : ∀ n ∈ before ++ after, n.enabled = true → ∀ chain, ∀ rule ∈ host.own n chain, m.purges chain rule = false
  removed : ∀ n ∈ before ++ after, n.enabled = true → ∀ chain, ∀ rule ∈ host.own n chain, host.removes m chain rule = false
  updated : ∀ n ∈ before ++ after, n.enabled = true → ∀ chain, ∀ rule ∈ host.own n chain, m.enabled = true →
    (e.on m).purges chain rule = false ∨ rule ∈ host.own (e.on m) chain

theorem put_shows {comment : String} (shows_ : ∀ args rule, host.denotes args = .ok rule → ["--comment", comment] <:+: args → contains rule comment = true)
    (all : ∀ c ∈ cs, ["--comment", comment] <:+: c.args) : ∀ rule ∈ host.put cs chain, contains rule comment = true := by
  intro rule member
  obtain ⟨c, among, denoted⟩ := List.mem_filterMap.mp member
  have there := (List.mem_filter.mp among).1
  cases read : host.denotes c.args with
  | error stderr =>
    rw [read] at denoted
    cases denoted
  | ok spec =>
    rw [read] at denoted
    obtain rfl := Option.some.inj denoted
    exact shows_ c.args spec read (all c there)

theorem vipCommands_comment {backends : List String} {lbPolicy gatewayIp : String} :
    ∀ c ∈ host.vipCommands m backends lbPolicy gatewayIp, ["--comment", m.vipComment] <:+: c.args := by
  intro c member
  have last : ∀ dnatDest, ["--comment", m.vipComment] <:+: ["-j", "DNAT", "--to-destination", dnatDest, "-m", "comment", "--comment", m.vipComment] :=
    fun dnatDest => ⟨["-j", "DNAT", "--to-destination", dnatDest, "-m", "comment"], [], rfl⟩
  simp only [Host.vipCommands, List.mem_append, List.mem_map, List.mem_flatMap, List.mem_cons, List.not_mem_nil, or_false] at member
  obtain (⟨-, -, rfl⟩ | ⟨-, -, rfl⟩) | ⟨backend, -, rfl | rfl⟩ := member
  · exact (last _).trans (List.suffix_append _ _).isInfix
  · exact (last _).trans (List.suffix_append _ _).isInfix
  · exact ⟨["-d", backend] ++ m.protoArgs ++ ["-m", "comment"], ["-j", "SNAT", "--to-source", gatewayIp], by simp⟩
  · exact ⟨["-d", backend] ++ m.protoArgs ++ ["-m", "conntrack", "--ctstate", "DNAT", "-m", "comment"], ["-j", "ACCEPT"], by simp⟩

theorem mem_lineMatches {comment : String} (there : contains rule comment = true) : lineMatches chain [comment] rule = true := by
  have cut : ("-A " ++ chain.name ++ " " ++ rule).toList = ("-A " ++ chain.name ++ " ").toList ++ rule.toList := String.toList_append
  have front : ("-A " ++ chain.name ++ " ").toList <+: ("-A " ++ chain.name ++ " " ++ rule).toList := by
    rw [cut]
    exact List.prefix_append _ _
  have part : rule.toList <:+: ("-A " ++ chain.name ++ " " ++ rule).toList := by
    rw [cut]
    exact (List.suffix_append _ _).isInfix
  have whole : contains ("-A " ++ chain.name ++ " " ++ rule) comment = true :=
    decide_eq_true ((of_decide_eq_true there).trans part)
  rw [lineMatches, ruleSpecMatches, List.isPrefixOf_iff_prefix.mpr front, List.all_cons, whole]
  rfl

theorem step_replaces (lists : Lists host m) : (host.step m chain).Replaces := by
  intro again rule member
  obtain ⟨vip, found⟩ := Option.isSome_iff_exists.mp again
  have shown : contains rule m.vipComment = true := by
    have among : rule ∈ host.own m chain := member
    unfold Host.own Host.commands at among
    rw [found] at among
    cases gateway : host.gateway with
    | none =>
      rw [gateway] at among
      cases among
    | some gatewayIp =>
      rw [gateway] at among
      exact put_shows lists.comment vipCommands_comment rule among
  change m.purges chain rule = true
  rw [IpMapping.purges, mem_lineMatches shown, Bool.or_true]

variable {start : Tables} {e : Edit}

theorem find_middle (first : ∀ b ∈ before, b.id ≠ m.id) : (before ++ m :: after).find? (fun n => n.id = m.id) = some m := by
  rw [List.find?_append, List.find?_eq_none.mpr (by simpa using first), Option.none_or, List.find?_cons_of_pos (by simp)]

theorem updated_ok {mappings : List IpMapping} (found : mappings.find? (fun n => n.id = m.id) = some m)
    (checked : e.check.isOk = true) (taken : host.takes (e.on m) = true) : (host.updateIpMapping mappings m.id e t).1 = .ok (e.on m) := by
  unfold Host.updateIpMapping
  rw [found]
  dsimp only
  cases check : e.check with
  | error message =>
    rw [check] at checked
    cases checked
  | ok done =>
    dsimp only
    rw [← Prod.mk.eta (p := host.applyMappingRules (e.on m) (host.removeMappingRules m t)), applied_ok taken]

theorem updated_count (fits : Fits host (t chain) room) (back : host.ReadsBack rule) (once : (t chain).count rule = 1)
    (mappings : List IpMapping) (found : mappings.find? (fun n => n.id = m.id) = some m)
    (updated : (host.updateIpMapping mappings m.id e t).1 = .ok (e.on m)) :
    ((host.updateIpMapping mappings m.id e t).2 chain).count rule =
      if m.enabled then (host.step (e.on m) chain).count rule (if host.removes m chain rule then 0 else 1)
      else if host.removes m chain rule then 0 else 1 := by
  unfold Host.updateIpMapping at *
  rw [found] at *
  dsimp only at *
  cases checked : e.check with
  | error message =>
    rw [checked] at updated
    cases updated
  | ok done =>
    rw [checked] at updated
    cases ran : (host.applyMappingRules (e.on m) (host.removeMappingRules m t)).1 with
    | error message =>
      rw [← Prod.mk.eta (p := host.applyMappingRules (e.on m) (host.removeMappingRules m t)), ran] at updated
      cases updated
    | ok done =>
      rw [← Prod.mk.eta (p := host.applyMappingRules (e.on m) (host.removeMappingRules m t)), ran]
      dsimp only
      rw [← removed_count fits back once]
      split
      · rename_i enabled
        exact applied_count enabled ran (removed_fits fits) back
      · rename_i disabled
        have skipped : host.applyMappingRules (e.on m) (host.removeMappingRules m t) = (.ok (), host.removeMappingRules m t) := by
          have off : (e.on m).enabled = false := Bool.eq_false_iff.mpr disabled
          rw [Host.applyMappingRules, off]
          rfl
        rw [skipped]

/-- Mappings are undisturbed exactly where they are apart. -/
theorem ip_mappings_apart_iff (lists : ∀ n ∈ before ++ m :: after, Lists host n)
    (listed : ∀ chain, ∀ spec ∈ start chain, host.Listed spec)
    (few : ∀ chain, (start chain).length + host.total (before ++ m :: after) chain + 1 ≤ 200000)
    (first : ∀ b ∈ before, b.id ≠ m.id)
    (applied : (host.applyIpMappings (before ++ m :: after) start).1 = 0)
    (updated : (host.updateIpMapping (before ++ m :: after) m.id e (host.applyIpMappings (before ++ m :: after) start).2).1 = .ok (e.on m)) :
    Undisturbed host start before m after e ↔ Apart host start before m after e := by
  have found : (before ++ m :: after).find? (fun n => n.id = m.id) = some m := find_middle first
  have all := fun chain => applied_after (listed chain) (few chain) applied
  have replaces : ∀ chain, ∀ step ∈ host.steps (before ++ m :: after) chain, step.Replaces := by
    intro chain step member
    obtain ⟨n, among, rfl⟩ := List.mem_map.mp member
    exact step_replaces (lists n (List.mem_filter.mp among).1)
  have settles : ∀ n ∈ before ++ m :: after, n.enabled = true → ∀ chain, ∀ rule ∈ host.own n chain,
      (((host.applyIpMappings (before ++ m :: after) start).2 chain).count rule = 1 ↔
        Settles (host.steps (before ++ m :: after) chain) rule ((host.ensureEstablished start chain).count rule)) := by
    intro n among enabled chain rule own
    rw [(all chain).2 rule ((lists n among).back chain rule own)]
    apply once_iff (replaces chain)
    exact ⟨host.step n chain, List.mem_map.mpr ⟨n, List.mem_filter.mpr ⟨among, enabled⟩, rfl⟩, own⟩
  have inside : ∀ n ∈ before ++ after, n ∈ before ++ m :: after := by
    intro n among
    rcases List.mem_append.mp among with early | late
    · exact List.mem_append_left _ early
    · exact List.mem_append_right _ (List.mem_cons_of_mem _ late)
  have each : (∀ n ∈ before ++ m :: after, n.enabled = true → ∀ chain, ∀ rule ∈ host.own n chain,
        ((host.applyIpMappings (before ++ m :: after) start).2 chain).count rule = 1) →
      ∀ n ∈ before ++ after, n.enabled = true → ∀ chain, ∀ rule ∈ host.own n chain,
        (rule ∈ host.purgeMappingRules m (host.applyIpMappings (before ++ m :: after) start).2 chain ↔ m.purges chain rule = false) ∧
        (rule ∈ (host.removeIpMapping (before ++ m :: after) m.id (host.applyIpMappings (before ++ m :: after) start).2).2 chain ↔
          host.removes m chain rule = false) ∧
        (host.removes m chain rule = false →
          (rule ∈ (host.updateIpMapping (before ++ m :: after) m.id e (host.applyIpMappings (before ++ m :: after) start).2).2 chain ↔
            (m.enabled = true → (e.on m).purges chain rule = false ∨ rule ∈ host.own (e.on m) chain))) := by
    intro once n among enabled chain rule own
    have one := once n (inside n among) enabled chain rule own
    have back := (lists n (inside n among)).back chain rule own
    have fits := (all chain).1
    refine ⟨?_, ?_, ?_⟩
    · rw [← List.count_pos_iff, purgeMappingRules_count fits back, one]
      cases m.purges chain rule <;> simp
    · rw [← List.count_pos_iff, Host.removeIpMapping, found]
      dsimp only
      rw [removed_count fits back one]
      cases host.removes m chain rule <;> simp
    · intro stays
      rw [← List.count_pos_iff, updated_count fits back one _ found updated, stays, if_neg Bool.false_ne_true]
      split
      · rename_i on
        exact kept_iff.trans ⟨fun kept _ => kept, fun kept => kept on⟩
      · rename_i off
        exact iff_of_true Nat.one_pos fun on => absurd on off
  constructor
  · intro undisturbed
    have facts := each undisturbed.once
    have removed := fun n among enabled chain rule own =>
      (facts n among enabled chain rule own).2.1.mp (undisturbed.removing n among enabled chain rule own)
    constructor
    · exact fun n among enabled chain rule own => (settles n among enabled chain rule own).mp (undisturbed.once n among enabled chain rule own)
    · exact fun n among enabled chain rule own => (facts n among enabled chain rule own).1.mp (undisturbed.purging n among enabled chain rule own)
    · exact removed
    · exact fun n among enabled chain rule own => ((facts n among enabled chain rule own).2.2 (removed n among enabled chain rule own)).mp
        (undisturbed.updating n among enabled chain rule own)
  · intro apart
    have once := fun n among enabled chain rule own => (settles n among enabled chain rule own).mpr (apart.settles n among enabled chain rule own)
    have facts := each once
    constructor
    · exact once
    · exact fun n among enabled chain rule own => (facts n among enabled chain rule own).1.mpr (apart.purged n among enabled chain rule own)
    · exact fun n among enabled chain rule own => (facts n among enabled chain rule own).2.1.mpr (apart.removed n among enabled chain rule own)
    · exact fun n among enabled chain rule own => ((facts n among enabled chain rule own).2.2
        (apart.removed n among enabled chain rule own)).mpr (apart.updated n among enabled chain rule own)

/-! ### Two mappings -/

def tcpListing : List String → List String
  | "-d" :: address :: rest => "-d" :: (if '/' ∈ address.toList then address else address ++ "/32") :: tcpListing rest
  | "-m" :: "tcp" :: rest => tcpListing rest
  | "--dport" :: port :: rest => "-m" :: "tcp" :: "--dport" :: port :: tcpListing rest
  | word :: rest => word :: tcpListing rest
  | [] => []

def wordsText (words : List String) : String := String.ofList ([' '].intercalate (words.map String.toList))

def tcpDenotes (args : List String) : Except String String :=
  let words := tcpListing args
  if !args.contains "--comment" && !words.contains "--comment" &&
      words.all (fun w => w ≠ "" && w.toList.all fun c => !isWhitespace c) && tcpListing words = words then .ok (wordsText words)
  else .error "Bad argument"

def gatewayHost : Host where
  denotes := tcpDenotes
  gateway := some "10.100.10.1"
  services := []
  probability := toString

theorem tcpDenotes_iff {args : List String} : tcpDenotes args = .ok spec ↔ "--comment" ∉ args ∧ "--comment" ∉ tcpListing args ∧
    Words ((tcpListing args).map String.toList) ∧ tcpListing (tcpListing args) = tcpListing args ∧ wordsText (tcpListing args) = spec := by
  unfold tcpDenotes Words
  simp only [List.forall_mem_map]
  split
  · rename_i formed
    simp at formed
    obtain ⟨⟨⟨absent, uncommented⟩, clean⟩, same⟩ := formed
    have words : ∀ w ∈ tcpListing args, w.toList ≠ [] ∧ ∀ c ∈ w.toList, isWhitespace c = false := by simpa using clean
    rw [Except.ok.injEq]
    exact ⟨fun shown => ⟨absent, uncommented, words, same, shown⟩, fun all => all.2.2.2.2⟩
  · rename_i refused
    simp at refused
    simp only [reduceCtorEq, false_iff]
    rintro ⟨first, second, clean, same, -⟩
    refine refused first second (fun w member => ?_) same
    simpa using clean w member

theorem tcp_retyped (spec : String) (listed : gatewayHost.Listed spec) : gatewayHost.retyped spec = some spec := by
  obtain ⟨args, denoted⟩ := listed
  obtain ⟨-, uncommented, clean, same, rfl⟩ := tcpDenotes_iff.mp denoted
  have texts : ((tcpListing args).map String.toList).map String.ofList = tcpListing args := by simp
  have again : tcpDenotes (tcpListing args) = .ok (wordsText (tcpListing args)) := by
    rw [tcpDenotes_iff, same]
    exact ⟨uncommented, uncommented, clean, same, rfl⟩
  rw [Host.retyped, wordsText, String.toList_ofList, splitWhitespace_joined clean, texts]
  exact congrArg Except.toOption again

theorem tcp_lists (m : IpMapping) : Lists gatewayHost m where
  back chain rule _ spec listed := by
    rw [tcp_retyped spec listed, Option.some.injEq]
  comment args rule denoted shown := by
    obtain ⟨absent, -⟩ := tcpDenotes_iff.mp denoted
    exact absurd (shown.subset List.mem_cons_self) absent

/-! The rules of this host as characters. -/

def tcpText (args : List String) : Option (List Char) :=
  (tcpDenotes args).toOption.map fun _ => [' '].intercalate ((tcpListing args).map String.toList)

def textsOf (cs : List Command) (chain : Chain) : List (List Char) := (cs.filter fun c => c.chain = chain).filterMap fun c => tcpText c.args

def texts (m : IpMapping) (chain : Chain) : List (List Char) :=
  match m.standardCommands "10.100.10.1" with
  | .ok cs => textsOf cs chain
  | .error _ => []

def showsText (chain : Chain) (text : List Char) (marker : String) : Bool :=
  decide (marker.toList <:+: ("-A " ++ chain.name ++ " ").toList ++ text)

def purgesText (m : IpMapping) (chain : Chain) (text : List Char) : Bool :=
  (m.markers chain).all (showsText chain text) || showsText chain text m.vipComment

def textStep (m : IpMapping) (chain : Chain) : Step (List Char) := ⟨purgesText m chain, false, texts m chain⟩

theorem tcpDenotes_text (args : List String) : (tcpDenotes args).toOption = (tcpText args).map String.ofList := by
  cases denoted : tcpDenotes args with
  | error stderr => simp [tcpText, denoted, Except.toOption]
  | ok spec =>
    obtain ⟨-, -, -, -, rfl⟩ := tcpDenotes_iff.mp denoted
    simp [tcpText, denoted, Except.toOption, wordsText]

theorem put_texts (cs : List Command) (chain : Chain) : gatewayHost.put cs chain = (textsOf cs chain).map String.ofList := by
  rw [Host.put, textsOf, List.map_filterMap]
  exact List.filterMap_congr fun c _ => tcpDenotes_text c.args

theorem own_texts (m : IpMapping) (chain : Chain) : gatewayHost.own m chain = (texts m chain).map String.ofList := by
  change (match m.standardCommands "10.100.10.1" with
    | .ok cs => gatewayHost.put cs chain
    | .error _ => []) = _
  unfold texts
  cases m.standardCommands "10.100.10.1" with
  | error e => rfl
  | ok cs => exact put_texts cs chain

theorem lineMatches_text (chain : Chain) (markers : List String) (text : List Char) :
    lineMatches chain markers (String.ofList text) = markers.all (showsText chain text) := by
  have line : ("-A " ++ chain.name ++ " " ++ String.ofList text).toList = ("-A " ++ chain.name ++ " ").toList ++ text := by
    rw [String.toList_append, String.toList_ofList]
  have front : ("-A " ++ chain.name ++ " ").toList.isPrefixOf (("-A " ++ chain.name ++ " ").toList ++ text) = true :=
    List.isPrefixOf_iff_prefix.mpr (List.prefix_append _ _)
  unfold lineMatches ruleSpecMatches contains
  rw [line, front, Bool.true_and]
  rfl

theorem purges_text (m : IpMapping) (chain : Chain) (text : List Char) : m.purges chain (String.ofList text) = purgesText m chain text := by
  rw [IpMapping.purges, lineMatches_text, lineMatches_text, purgesText, List.all_cons, List.all_nil, Bool.and_true]

theorem mem_texts {text : List Char} {all : List (List Char)} : String.ofList text ∈ all.map String.ofList ↔ text ∈ all :=
  List.mem_map_of_injective fun _ _ => String.ofList_injective

theorem removes_text (m : IpMapping) (chain : Chain) (text : List Char) :
    gatewayHost.removes m chain (String.ofList text) = (showsText chain text m.vipComment || decide (text ∈ texts m chain)) := by
  have standard : gatewayHost.standard m chain = (texts m chain).map String.ofList := own_texts m chain
  simp only [Host.removes, lineMatches_text, standard, mem_texts, List.all_cons, List.all_nil, Bool.and_true]

theorem step_text (m : IpMapping) (chain : Chain) (text : List Char) (times : Nat) :
    (gatewayHost.step m chain).count (String.ofList text) times = (textStep m chain).count text times :=
  Step.count_map (fun _ _ => String.ofList_injective) (purges_text m chain) rfl (own_texts m chain) text times

theorem countAfter_text (mappings : List IpMapping) (chain : Chain) (text : List Char) (times : Nat) :
    countAfter (gatewayHost.steps mappings chain) (String.ofList text) times =
      countAfter ((mappings.filter IpMapping.enabled).map fun m => textStep m chain) text times := by
  rw [countAfter, countAfter, Host.steps, List.foldl_map, List.foldl_map]
  simp only [step_text]

def web : IpMapping := ⟨"18c5a0", "203.0.113.5", "10.100.10.5", some "80", none, "tcp", true⟩

def mail : IpMapping := ⟨"18c5a1", "203.0.113.6", "10.100.10.6", some "25", none, "tcp", true⟩

def mailTls : Edit := ⟨"203.0.113.6", "10.100.10.6", some "465", none, "tcp"⟩

theorem chain_mem (chain : Chain) : chain ∈ [Chain.prerouting, .output, .postrouting, .forward] := by
  cases chain <;> decide

theorem ip_mappings_apart_sample : Undisturbed gatewayHost (fun _ => []) [web] mail [] mailTls := by
  apply (ip_mappings_apart_iff ?_ ?_ ?_ ?_ ?_ ?_).mpr
  · have settled : ∀ n ∈ [web, mail], ∀ chain ∈ [Chain.prerouting, .output, .postrouting, .forward], ∀ text ∈ texts n chain,
        purgesText n chain text = true ∧ countAfter ([web, mail].map fun m => textStep m chain) text 0 = 1 := by decide +kernel
    have spared : ∀ chain ∈ [Chain.prerouting, .output, .postrouting, .forward], ∀ text ∈ texts web chain, purgesText mail chain text = false ∧
        purgesText (mailTls.on mail) chain text = false ∧ showsText chain text mail.vipComment = false ∧ text ∉ texts mail chain := by
      decide +kernel
    have owned : ∀ {n : IpMapping} {chain : Chain} {rule : String}, rule ∈ gatewayHost.own n chain →
        ∃ text ∈ texts n chain, String.ofList text = rule := by
      intro n chain rule own
      rw [own_texts] at own
      exact List.mem_map.mp own
    have webs : ∀ n ∈ [web] ++ [], n = web := fun n among => List.mem_singleton.mp among
    constructor
    · intro n among enabled chain rule own
      apply (once_iff ?_ ⟨gatewayHost.step n chain, List.mem_map.mpr ⟨n, List.mem_filter.mpr ⟨among, enabled⟩, rfl⟩, own⟩).mp
      · obtain ⟨text, member, rfl⟩ := owned own
        obtain ⟨purged, one⟩ := settled n among chain (chain_mem chain) text member
        change countAfter (gatewayHost.steps [web, mail] chain) (String.ofList text) _ = 1
        have stepped : ∃ step ∈ ([web, mail].filter IpMapping.enabled).map fun m => textStep m chain, step.purges text = true :=
          ⟨textStep n chain, List.mem_map.mpr ⟨n, List.mem_filter.mpr ⟨among, enabled⟩, rfl⟩, purged⟩
        rw [countAfter_text, countAfter_purged stepped]
        exact one
      · intro step member
        obtain ⟨n, -, rfl⟩ := List.mem_map.mp member
        intro again
        cases again
    · intro n among _ chain rule own
      obtain rfl := webs n among
      obtain ⟨text, member, rfl⟩ := owned own
      rw [purges_text]
      exact (spared chain (chain_mem chain) text member).1
    · intro n among _ chain rule own
      obtain rfl := webs n among
      obtain ⟨text, member, rfl⟩ := owned own
      obtain ⟨-, -, unmarked, apart⟩ := spared chain (chain_mem chain) text member
      rw [removes_text, unmarked, decide_eq_false apart, Bool.or_self]
    · intro n among _ chain rule own _
      obtain rfl := webs n among
      obtain ⟨text, member, rfl⟩ := owned own
      rw [purges_text]
      exact .inl (spared chain (chain_mem chain) text member).2.1
  · exact fun n _ => tcp_lists n
  · intro chain spec member
    cases member
  · intro chain
    have few : ∀ chain ∈ [Chain.prerouting, .output, .postrouting, .forward], gatewayHost.total [web, mail] chain = 2 := by decide
    change 0 + gatewayHost.total [web, mail] chain + 1 ≤ 200000
    rw [few chain (chain_mem chain)]
    decide
  · decide
  · apply applied_zero
    decide
  · apply updated_ok
    · decide
    · decide
    · decide

def proxy : IpMapping := ⟨"18c5a2", "203.0.113.5", "10.100.10.7", some "8080", none, "tcp", true⟩

def backup : IpMapping := ⟨"18c5a3", "203.0.113.9", "10.100.10.5", some "80", none, "tcp", true⟩

def proxyRule : List String := ["-d", "203.0.113.5/32", "-p", "tcp", "-m", "tcp", "--dport", "8080", "-j", "DNAT", "--to-destination", "10.100.10.7"]

def webRule : List String := ["-d", "10.100.10.5/32", "-p", "tcp", "-m", "tcp", "--dport", "80", "-j", "SNAT", "--to-source", "10.100.10.1"]

theorem own_words {words : List String} {m : IpMapping} {chain : Chain}
    (among : [' '].intercalate (words.map String.toList) ∈ texts m chain) : wordsText words ∈ gatewayHost.own m chain := by
  rw [own_texts]
  exact mem_texts.mpr among

/-- The text of port 80 is part of that of port 8080, and two public addresses of one target
have its rules in common. -/
theorem ip_mappings_disturb :
    ((gatewayHost.applyIpMappings [proxy, web] fun _ => []).1 = 0 ∧ ¬Undisturbed gatewayHost (fun _ => []) [proxy] web [] mailTls) ∧
      (gatewayHost.applyIpMappings [web, backup] fun _ => []).1 = 0 ∧
      ¬Undisturbed gatewayHost (fun _ => []) [web] backup [] mailTls := by
  have first : (gatewayHost.applyIpMappings [proxy, web] fun _ => []).1 = 0 := applied_zero (by decide)
  have second : (gatewayHost.applyIpMappings [web, backup] fun _ => []).1 = 0 := applied_zero (by decide)
  refine ⟨⟨first, fun undisturbed => ?_⟩, second, fun undisturbed => ?_⟩
  · have own : wordsText proxyRule ∈ gatewayHost.own proxy .prerouting := own_words (by decide)
    have one := undisturbed.once proxy List.mem_cons_self rfl .prerouting _ own
    have after := @applied_after gatewayHost .prerouting [proxy, web] (fun _ => []) nofun (by decide) first
    rw [List.singleton_append, after.2 _ ((tcp_lists proxy).back .prerouting _ own)] at one
    rw [wordsText, countAfter_text, countAfter_purged ⟨textStep proxy .prerouting, by simp [proxy], by decide +kernel⟩] at one
    exact absurd one (by decide +kernel)
  · have own : wordsText webRule ∈ gatewayHost.own web .postrouting := own_words (by decide)
    have back := (tcp_lists web).back .postrouting _ own
    have once := undisturbed.once web List.mem_cons_self rfl .postrouting _ own
    rw [List.singleton_append] at once
    have after := @applied_after gatewayHost .postrouting [web, backup] (fun _ => []) nofun (by decide) second
    have removed : gatewayHost.removes backup .postrouting (wordsText webRule) = true := by
      rw [wordsText, removes_text]
      decide +kernel
    have found : ([web] ++ backup :: []).find? (fun n => n.id = backup.id) = some backup := by decide
    have left := undisturbed.removing web List.mem_cons_self rfl .postrouting _ own
    rw [Host.removeIpMapping, found, List.singleton_append, ← List.count_pos_iff] at left
    dsimp only at left
    rw [removed_count after.1 back once, removed] at left
    cases left

end Networking
