import Cql.Query.Assignments
import Cql.Proofs.History

/-!
# Clause by clause

What a query says, and what becomes of each step, is settled by the steps of each clause alone, in
whatever way the clauses are mixed.  A step says nothing of the clauses that it does not touch
(`silent`), so every clause can be read off its own steps (`filterMap_restrict`).  Only a demand on
a write can be refused for what was said before, and then for an earlier demand
(`refusal?_said_restrict`).

The text of a built statement is its clauses with blanks between them.  The steps that were taken
make the same query as all the steps (`said_taken`), and their demands are all of one kind
(`agreed_taken`).

* `outcomes_restrict`   the steps of one clause fare alike without the others;
* `said_congr`          steps that agree clause by clause make one query;
* `clauses_said`        what is built, and that it has the clauses of the template;
* `built_by_clauses`    the two together, for a new query of any kind.
-/

namespace Cql

namespace Query

/-! ## steps of one clause -/

namespace Step

/-- nothing is said of the clauses that are not touched -/
structure Silent (s : Step) : Prop where
  columns : s.clause ≠ .columns → s.columns = []
  condition : s.clause ≠ .conditions → s.condition? = none
  demand : s.clause ≠ .guard → s.demand? = none
  assignment : s.clause ≠ .assigned → s.assignment? = none
  group : s.clause ≠ .groups → s.group? = none
  order : s.clause ≠ .orders → s.order? = none
  partitionLimit : s.clause ≠ .partitionLimit → s.partitionLimit? = none
  limit : s.clause ≠ .limit → s.limit? = none
  timestamp : s.clause ≠ .timestamp → s.timestamp? = none
  ttl : s.clause ≠ .ttl → s.ttl? = none
  timeout : s.clause ≠ .timeout → s.timeout? = none
  profile : s.clause ≠ .profile → s.profile? = none
  distinct : s.clause ≠ .distinct → s.saysDistinct = false
  filtering : s.clause ≠ .allowFiltering → s.allowsFiltering = false
  cache : s.clause ≠ .bypassCache → s.bypassesCache = false
  ifNotExists : s.clause ≠ .ifNotExists → s.saysIfNotExists = false

theorem silent (s : Step) : s.Silent := by
  rcases s with s | s | s | s <;> cases s <;> constructor <;> simp [clause]

theorem touches_iff {kind : Kind} {clause : Clause} {s : Step} :
    s.touches kind clause ↔ s.kind = kind ∧ s.clause = clause := by
  simp [touches]

end Step

section
variable {kind : Kind} {clause : Clause} {ss : List Step}

theorem restrict_concat (s : Step) : restrict kind clause (ss ++ [s]) =
    if s.touches kind clause then restrict kind clause ss ++ [s] else restrict kind clause ss := by
  cases h : s.touches kind clause <;> simp [restrict, h]

theorem restrict_restrict :
    restrict kind clause (restrict kind clause ss) = restrict kind clause ss := by
  simp [restrict]

theorem restrict_eq : restrict kind clause ss =
    (ss.filter fun s => s.kind == kind).filter fun s => s.clause == clause := by
  rw [List.filter_filter, restrict]
  refine List.filter_congr fun s _ => ?_
  rw [Step.touches, Bool.and_comm]

theorem filterMap_restrict {β : Type} {f : Step → Option β}
    (hf : ∀ s, s.clause ≠ clause → f s = none) :
    (restrict kind clause ss).filterMap f = (ss.filter fun s => s.kind == kind).filterMap f := by
  rw [restrict_eq, List.filterMap_filter]
  refine List.filterMap_congr fun s _ => ?_
  by_cases hc : s.clause = clause
  · rw [if_pos (beq_iff_eq.2 hc)]
  · rw [hf s hc, ite_self]

theorem any_restrict {p : Step → Bool} (hp : ∀ s, s.clause ≠ clause → p s = false) :
    (restrict kind clause ss).any p = (ss.filter fun s => s.kind == kind).any p := by
  rw [restrict_eq, List.any_filter]
  refine List.any_congr rfl fun s => ?_
  by_cases hc : s.clause = clause
  · rw [beq_iff_eq.2 hc, Bool.true_and]
  · rw [hp s hc, Bool.and_false]

theorem columns_restrict : (restrict kind .columns ss).flatMap Step.columns =
    (ss.filter fun s => s.kind == kind).flatMap Step.columns := by
  rw [restrict_eq]
  induction ss.filter fun s => s.kind == kind with
  | nil => rfl
  | cons s ss ih =>
    by_cases hc : s.clause = .columns
    · rw [List.filter_cons, if_pos (beq_iff_eq.2 hc), List.flatMap_cons, List.flatMap_cons, ih]
    · rw [List.filter_cons, if_neg (mt beq_iff_eq.1 hc), List.flatMap_cons, s.silent.columns hc, ih,
        List.nil_append]

end

/-- steps that agree clause by clause make one query -/
theorem said_congr {kind : Kind} {as bs : List Step}
    (h : ∀ clause, restrict kind clause as = restrict kind clause bs) (table : String) :
    said kind table as = said kind table bs := by
  have picked {β : Type} {f : Step → Option β} {clause : Clause}
      (hf : ∀ s, s.clause ≠ clause → f s = none) :
      (as.filter fun s => s.kind == kind).filterMap f =
        (bs.filter fun s => s.kind == kind).filterMap f := by
    rw [← filterMap_restrict hf, h, filterMap_restrict hf]
  have flagged {p : Step → Bool} {clause : Clause} (hp : ∀ s, s.clause ≠ clause → p s = false) :
      (as.filter fun s => s.kind == kind).any p = (bs.filter fun s => s.kind == kind).any p := by
    rw [← any_restrict hp, h, any_restrict hp]
  have columns : (as.filter fun s => s.kind == kind).flatMap Step.columns =
      (bs.filter fun s => s.kind == kind).flatMap Step.columns := by
    rw [← columns_restrict, h, columns_restrict]
  have conditions := picked fun s => s.silent.condition
  have assignments := picked fun s => s.silent.assignment
  have guard : saidGuard (as.filter fun s => s.kind == kind) =
      saidGuard (bs.filter fun s => s.kind == kind) :=
    congrArg Guard.ofDemands (picked fun s => s.silent.demand)
  have timeout := congrArg List.getLast? (picked fun s => s.silent.timeout)
  have settings : saidSettings (as.filter fun s => s.kind == kind) =
      saidSettings (bs.filter fun s => s.kind == kind) := by
    simp only [saidSettings, lastOf, picked fun s => s.silent.timestamp,
      picked fun s => s.silent.ttl, timeout]
  have profile := congrArg List.getLast? (picked fun s => s.silent.profile)
  unfold said
  cases kind with
  | select =>
    simp only [saidSelect, lastOf, flagged fun s => s.silent.distinct, columns, conditions,
      picked fun s => s.silent.group, picked fun s => s.silent.order,
      picked fun s => s.silent.partitionLimit, picked fun s => s.silent.limit,
      flagged fun s => s.silent.filtering, flagged fun s => s.silent.cache, timeout, profile]
  | insert =>
    simp only [saidInsert, lastOf, assignments, flagged fun s => s.silent.ifNotExists, settings,
      profile]
  | update => simp only [saidUpdate, lastOf, assignments, conditions, guard, settings, profile]
  | delete => simp only [saidDelete, lastOf, columns, conditions, guard, settings, profile]

/-! ## refusals -/

theorem refusal?_select (p q : Select) (s : SelectStep) :
    (select p).refusal? (.select s) = (select q).refusal? (.select s) := by
  cases s with
  | whereAll clause data =>
    cases h : Fragment.bind clause data <;> simp [refusal?, step, Select.step, h]
  | _ => rfl

theorem refusal?_insert (p q : Insert) (s : InsertStep) :
    (insert p).refusal? (.insert s) = (insert q).refusal? (.insert s) := by
  cases s with
  | set column x =>
    cases h : x.bind with
    | error e => simp [refusal?, step, Insert.step, h]
    | ok v => by_cases hc : v.isCounter <;> simp [refusal?, step, Insert.step, Insert.assign, h, hc]
  | _ => rfl

/-- why the demand is refused that would turn a guard into this one -/
def refusedFor : Except BuilderError Guard → Option Error
  | .ok _ => none
  | .error e => some (.builder e)

theorem refusedFor_eq_none {g : Except BuilderError Guard} (h : refusedFor g = none) :
    ∃ g', g = .ok g' := by
  cases g with
  | ok g' => exact ⟨g', rfl⟩
  | error e => cases h

theorem refusal?_update_guarded {q : Update} {s : UpdateStep} {g : Except BuilderError Guard}
    (h : q.step s = q.guarded g) : (update q).refusal? (.update s) = refusedFor g := by
  cases g <;> simp [refusal?, step, h, Update.guarded, refusedFor]

theorem refusal?_delete_guarded {q : Delete} {s : DeleteStep} {g : Except BuilderError Guard}
    (h : q.step s = q.guarded g) : (delete q).refusal? (.delete s) = refusedFor g := by
  cases g <;> simp [refusal?, step, h, Delete.guarded, refusedFor]

theorem refusal?_update {p q : Update} {s : UpdateStep}
    (hg : (Step.update s).clause = .guard → p.guard = q.guard) :
    (update p).refusal? (.update s) = (update q).refusal? (.update s) := by
  cases s with
  | change how column x =>
    cases h : x.bind with
    | error e => simp [refusal?, step, Update.step, h]
    | ok v =>
      by_cases hc : how = .assign ∧ v.isCounter <;>
        simp [refusal?, step, Update.step, Update.assign, h, hc]
  | whereAll clause data =>
    cases h : Fragment.bind clause data <;> simp [refusal?, step, Update.step, h]
  | ifAll clause data =>
    cases h : Fragment.bind clause data with
    | error e => simp [refusal?, step, Update.step, h]
    | ok f =>
      rw [refusal?_update_guarded (Update.step_ifAll h p),
        refusal?_update_guarded (Update.step_ifAll h q), hg rfl]
  | ifFragment f => rw [refusal?_update_guarded rfl, refusal?_update_guarded rfl, hg rfl]
  | ifExists => rw [refusal?_update_guarded rfl, refusal?_update_guarded rfl, hg rfl]
  | _ => rfl

theorem refusal?_delete {p q : Delete} {s : DeleteStep}
    (hg : (Step.delete s).clause = .guard → p.guard = q.guard) :
    (delete p).refusal? (.delete s) = (delete q).refusal? (.delete s) := by
  cases s with
  | whereAll clause data =>
    cases h : Fragment.bind clause data <;> simp [refusal?, step, Delete.step, h]
  | ifAll clause data =>
    cases h : Fragment.bind clause data with
    | error e => simp [refusal?, step, Delete.step, h]
    | ok f =>
      rw [refusal?_delete_guarded (Delete.step_ifAll h p),
        refusal?_delete_guarded (Delete.step_ifAll h q), hg rfl]
  | ifFragment f => rw [refusal?_delete_guarded rfl, refusal?_delete_guarded rfl, hg rfl]
  | ifExists => rw [refusal?_delete_guarded rfl, refusal?_delete_guarded rfl, hg rfl]
  | _ => rfl

section
variable {kind : Kind} {clause : Clause} (table : String) (ss : List Step)

theorem saidGuard_restrict (h : clause = .guard) :
    saidGuard ((restrict kind clause ss).filter fun s => s.kind == kind) =
      saidGuard (ss.filter fun s => s.kind == kind) := by
  subst h
  have hf := fun s : Step => s.silent.demand
  rw [saidGuard, saidGuard, ← filterMap_restrict hf, restrict_restrict, filterMap_restrict hf]

/-- a step is refused, or taken, for what the steps of its clause have said -/
theorem refusal?_said_restrict {s : Step} (h : s.touches kind clause) :
    (said kind table (restrict kind clause ss)).refusal? s = (said kind table ss).refusal? s := by
  obtain ⟨rfl, rfl⟩ := Step.touches_iff.1 h
  -- only a demand is judged by what was said, and only by the guard
  cases s with
  | select s => exact refusal?_select _ _ s
  | insert s => exact refusal?_insert _ _ s
  | update s => exact refusal?_update (saidGuard_restrict ss)
  | delete s => exact refusal?_delete (saidGuard_restrict ss)

/-- the steps of one clause fare alike without the others -/
theorem outcomes_restrict :
    ((ofTable kind table).outcomes ss).filter (fun o => o.1.touches kind clause) =
      (ofTable kind table).outcomes (restrict kind clause ss) := by
  induction ss using List.reverseRecOn with
  | nil => rfl
  | append_singleton ss s ih =>
    rw [outcomes_concat, List.filter_append, ih, restrict_concat]
    cases h : s.touches kind clause with
    | true =>
      rw [if_pos rfl, outcomes_concat, run_ofTable, run_ofTable, refusal?_said_restrict table ss h,
        List.filter_cons, if_pos h, List.filter_nil]
    | false =>
      rw [if_neg Bool.false_ne_true, List.filter_cons, if_neg (ne_true_of_eq_false h),
        List.filter_nil, List.append_nil]

end

/-! ## the steps that were taken -/

section
variable {kind : Kind} (table : String) {ss : List Step}

theorem filter_own (own : ∀ s ∈ ss, s.kind = kind) : (ss.filter fun s => s.kind == kind) = ss :=
  List.filter_eq_self.2 fun s hs => beq_iff_eq.2 (own s hs)

theorem said_insert (own : ∀ s ∈ ss, s.kind = .insert) :
    said .insert table ss = insert (saidInsert table ss) :=
  congrArg (fun own => insert (saidInsert table own)) (filter_own own)

theorem said_update (own : ∀ s ∈ ss, s.kind = .update) :
    said .update table ss = update (saidUpdate table ss) :=
  congrArg (fun own => update (saidUpdate table own)) (filter_own own)

theorem said_delete (own : ∀ s ∈ ss, s.kind = .delete) :
    said .delete table ss = delete (saidDelete table ss) :=
  congrArg (fun own => delete (saidDelete table own)) (filter_own own)

theorem build_insert (own : ∀ s ∈ ss, s.kind = .insert) : (said .insert table ss).build =
    if (ss.filterMap Step.assignment?).isEmpty then .error (.builder (.noAssignments .insert))
    else .ok ⟨(saidInsert table ss).text, (saidInsert table ss).values⟩ := by
  have ha : (saidInsert table ss).assigned.isEmpty = (ss.filterMap Step.assignment?).isEmpty := by
    rw [saidInsert, Entries.settled_isEmpty, List.isEmpty_map]
  rw [said_insert table own, build, ha]

theorem build_update (own : ∀ s ∈ ss, s.kind = .update) : (said .update table ss).build =
    if (ss.filterMap Step.assignment?).isEmpty then .error (.builder (.noAssignments .update))
    else .ok ⟨(saidUpdate table ss).text, (saidUpdate table ss).values⟩ := by
  have ha : (saidUpdate table ss).assigned.isEmpty = (ss.filterMap Step.assignment?).isEmpty :=
    Entries.settled_isEmpty _
  rw [said_update table own, build, ha]

end

section
variable (kind : Kind) (table : String) (ss : List Step)

/-- one more step is taken, or it is not for this kind of query, or it is refused -/
theorem taken_concat (s : Step) :
    (s.kind = kind ∧ ((ofTable kind table).run ss).refusal? s = none ∧
        taken kind table (ss ++ [s]) = taken kind table ss ++ [s]) ∨
      (s.kind ≠ kind ∨ ∃ e, ((ofTable kind table).run ss).refusal? s = some e) ∧
        taken kind table (ss ++ [s]) = taken kind table ss := by
  unfold taken
  rw [outcomes_concat, List.filter_append, List.map_append]
  by_cases hk : s.kind = kind
  · cases hr : ((ofTable kind table).run ss).refusal? s with
    | none => exact .inl ⟨hk, rfl, by simp [hk]⟩
    | some e => exact .inr ⟨.inr ⟨e, rfl⟩, by simp⟩
  · exact .inr ⟨.inl hk, by simp [hk]⟩

theorem taken_sublist : (taken kind table ss).Sublist ss := by
  have hs := (List.filter_sublist (p := fun o => o.1.kind == kind && o.2.isNone)
    (l := (ofTable kind table).outcomes ss)).map Prod.fst
  rwa [map_fst_outcomes] at hs

variable {kind table ss} in
theorem kind_of_mem_taken {s : Step} (h : s ∈ taken kind table ss) : s.kind = kind := by
  obtain ⟨o, ho, rfl⟩ := List.mem_map.1 h
  have hk := (List.mem_filter.1 ho).2
  exact beq_iff_eq.1 (Bool.and_eq_true_iff.1 hk).1

theorem filter_taken :
    ((taken kind table ss).filter fun s => s.kind == kind) = taken kind table ss :=
  filter_own fun _ hs => kind_of_mem_taken hs

theorem said_of_kind_ne {s : Step} (h : s.kind ≠ kind) :
    said kind table (ss ++ [s]) = said kind table ss := by
  have hf : ((ss ++ [s]).filter fun s => s.kind == kind) = ss.filter fun s => s.kind == kind := by
    simp [h]
  unfold said
  rw [hf]

/-- the steps that were taken make the same query as all of them -/
theorem said_taken : said kind table (taken kind table ss) = said kind table ss := by
  induction ss using List.reverseRecOn with
  | nil => rfl
  | append_singleton ss s ih =>
    rcases taken_concat kind table ss s with ⟨-, -, ht⟩ | ⟨hk | ⟨e, hr⟩, ht⟩
    · rw [ht, ← said_concat, ih, said_concat]
    · rw [ht, ih, said_of_kind_ne kind table ss hk]
    · rw [run_ofTable] at hr
      rw [ht, ih, ← said_concat, advance_of_refused hr]

theorem run_eq_said_taken : (ofTable kind table).run ss = said kind table (taken kind table ss) :=
  (run_ofTable kind table ss).trans (said_taken kind table ss).symm

end

end Query

/-! ## demands that were taken -/

/-- what a demand makes of a guard -/
def Guard.heed (g : Guard) : Demand → Except BuilderError Guard
  | .row => g.requireExists
  | .condition f => g.require f

/-- all for the row, or all for conditions -/
def Demand.Agreed (ds : List Demand) : Prop :=
  (∀ d ∈ ds, d.isRow = true) ∨ ∀ d ∈ ds, d.isRow = false

theorem Demand.agreed_concat {ds : List Demand} {d : Demand} {g : Guard} (h : Agreed ds)
    (hd : (Guard.ofDemands ds).heed d = .ok g) : Agreed (ds ++ [d]) := by
  cases ds with
  | nil => cases d <;> simp [Agreed, isRow]
  | cons c ds =>
    cases c with
    | row =>
      have hs : ∀ e ∈ row :: ds, e.isRow = true :=
        h.resolve_right fun hn => Bool.noConfusion (hn row List.mem_cons_self)
      cases d with
      | row => exact .inl (List.forall_mem_append.2 ⟨hs, List.forall_mem_singleton.2 rfl⟩)
      | condition f => cases hd
    | condition f =>
      have hs : ∀ e ∈ condition f :: ds, e.isRow = false :=
        h.resolve_left fun hn => Bool.noConfusion (hn (condition f) List.mem_cons_self)
      cases d with
      | row => cases hd
      | condition g => exact .inr (List.forall_mem_append.2 ⟨hs, List.forall_mem_singleton.2 rfl⟩)

namespace Query

theorem heed_of_update {q : Update} {s : UpdateStep} {d : Demand}
    (h : (update q).refusal? (.update s) = none) (hd : (Step.update s).demand? = some d) :
    ∃ g, q.guard.heed d = .ok g := by
  cases s with
  | ifAll clause data =>
    cases hf : Fragment.bind clause data with
    | error e => simp [hf] at hd
    | ok f =>
      obtain rfl : Demand.condition f = d := by simpa [hf] using hd
      rw [refusal?_update_guarded (Update.step_ifAll hf q)] at h
      exact refusedFor_eq_none h
  | ifFragment f | ifExists =>
    cases hd
    rw [refusal?_update_guarded rfl] at h
    exact refusedFor_eq_none h
  | _ => cases hd

theorem heed_of_delete {q : Delete} {s : DeleteStep} {d : Demand}
    (h : (delete q).refusal? (.delete s) = none) (hd : (Step.delete s).demand? = some d) :
    ∃ g, q.guard.heed d = .ok g := by
  cases s with
  | ifAll clause data =>
    cases hf : Fragment.bind clause data with
    | error e => simp [hf] at hd
    | ok f =>
      obtain rfl : Demand.condition f = d := by simpa [hf] using hd
      rw [refusal?_delete_guarded (Delete.step_ifAll hf q)] at h
      exact refusedFor_eq_none h
  | ifFragment f | ifExists =>
    cases hd
    rw [refusal?_delete_guarded rfl] at h
    exact refusedFor_eq_none h
  | _ => cases hd

/-- no demand is taken beside one of the other kind -/
theorem agreed_taken (kind : Kind) (table : String) (ss : List Step) :
    Demand.Agreed ((taken kind table ss).filterMap Step.demand?) := by
  induction ss using List.reverseRecOn with
  | nil => exact .inl nofun
  | append_singleton ss s ih =>
    rcases taken_concat kind table ss s with ⟨rfl, hr, ht⟩ | ⟨-, ht⟩
    · rw [run_eq_said_taken] at hr
      unfold said at hr
      rw [filter_taken] at hr
      rw [ht, List.filterMap_append]
      cases hd : s.demand? with
      | none => rwa [List.filterMap_cons_none hd, List.filterMap_nil, List.append_nil]
      | some d =>
        rw [List.filterMap_cons_some hd, List.filterMap_nil]
        cases s with
        | select s => cases s <;> cases hd
        | insert s => cases s <;> cases hd
        | update s =>
          obtain ⟨g, hg⟩ := heed_of_update hr hd
          exact Demand.agreed_concat ih hg
        | delete s =>
          obtain ⟨g, hg⟩ := heed_of_delete hr hd
          exact Demand.agreed_concat ih hg
    · rwa [ht]

/-! ## the clauses that have text -/

/-- a clause, left out if it has no text -/
def present (clause : String) : List String := if clause.isEmpty then [] else [clause]

theorem filter_eq_present (clauses : List String) :
    (clauses.filter fun c => !c.isEmpty) = (clauses.map present).flatten := by
  induction clauses with
  | nil => rfl
  | cons c clauses ih =>
    rw [List.filter_cons, ih, List.map_cons, List.flatten_cons, present]
    cases c.isEmpty <;> rfl

theorem present_of_ne {c : String} (h : c ≠ "") : present c = [c] :=
  if_neg fun he => h (String.isEmpty_iff.1 he)

theorem append_ne {keyword : String} (hk : keyword ≠ "") (text : String) : keyword ++ text ≠ "" :=
  fun he => hk (String.append_eq_empty_iff.1 he).1

section
variable (keyword : String) (hk : keyword ≠ "")
include hk

theorem present_flag (said : Bool) : present (keywordIf keyword said) = flag keyword said := by
  cases said with
  | false => rfl
  | true => exact present_of_ne hk

theorem present_behind (text : String) :
    present (keyword ++ " " ++ text) = [keyword ++ " " ++ text] :=
  present_of_ne (append_ne (append_ne hk " ") text)

theorem present_listed (sep : String) (items : List String) :
    present (if items.isEmpty then "" else keyword ++ " " ++ Text.join sep items) =
      listedBehind keyword sep items := by
  cases items with
  | nil => rfl
  | cons x xs => exact present_behind keyword hk _

theorem present_limit (n : Option UInt32) : present (Select.limitClause keyword n) =
    held keyword (n.map fun n => toString n.toNat) := by
  cases n with
  | none => rfl
  | some n => exact present_behind keyword hk _

theorem present_conditions (fs : Fragments) : present (fs.clause keyword) =
    listedBehind keyword " AND " (fs.map Fragment.text) := by
  rw [← present_listed keyword hk, List.isEmpty_map]
  rfl

end

theorem parts_eq_held (u : Using) : u.parts =
    held "TIMESTAMP" (u.timestamp.map fun t => toString t.toInt) ++
      held "TTL" (u.ttl.map fun n => toString n.toNat) ++
      held "TIMEOUT" (u.timeout.map Span.text) := by
  obtain ⟨timestamp, ttl, timeout⟩ := u
  cases timestamp <;> cases ttl <;> cases timeout <;> rfl

theorem present_using (u : Using) : present u.clause = listedBehind "USING" " AND " u.parts :=
  present_listed "USING" (by decide) " AND " u.parts

/-- items with text, the first of which is enough -/
theorem join_ne {sep x : String} {xs : List String} (hx : x ≠ "") : Text.join sep (x :: xs) ≠ "" := by
  cases xs with
  | nil => exact hx
  | cons y xs =>
    rw [Text.join_cons_cons]
    exact append_ne (append_ne hx sep) _

theorem present_join (sep : String) {items : List String} (h : "" ∉ items) :
    present (Text.join sep items) = listed sep items := by
  cases items with
  | nil => rfl
  | cons x xs => exact present_of_ne (join_ne fun he => h (he ▸ List.mem_cons_self))

theorem present_guard {ss : List Step} (h : Demand.Agreed (ss.filterMap Step.demand?)) :
    present (saidGuard ss).clause = demandsText ss := by
  unfold saidGuard demandsText
  cases hd : ss.filterMap Step.demand? with
  | nil => rfl
  | cons d ds =>
    cases d with
    | row => rfl
    | condition f =>
      rw [hd] at h
      have hs : ((Demand.condition f :: ds).any Demand.isRow) = false := by
        refine List.any_eq_false.2 fun e he => ?_
        rw [h.resolve_left (fun hn => Bool.noConfusion (hn _ List.mem_cons_self)) e he]
        exact Bool.false_ne_true
      simp only [hs]
      exact present_behind "IF" (by decide) _

/-! ## the text -/

section
variable {table : String} {ss : List Step} (ht : table ≠ "")
include ht

theorem clauses_saidSelect (hc : "" ∉ ss.flatMap Step.columns) :
    ((saidSelect table ss).clauses.filter fun c => !c.isEmpty) = template .select table ss := by
  have projection : present (saidSelect table ss).projection =
      if (ss.flatMap Step.columns).isEmpty then ["*"] else listed ", " (ss.flatMap Step.columns) := by
    rw [← present_join ", " hc]
    exact apply_ite present _ _ _
  have named : present (saidSelect table ss).table = [table] := present_of_ne ht
  have groups : present (saidSelect table ss).groupClause = _ :=
    present_listed "GROUP BY" (by decide) ", " _
  have orders : present (saidSelect table ss).orderClause = listedBehind "ORDER BY" ", "
      ((ss.filterMap Step.order?).map fun o => o.1 ++ " " ++ o.2.keyword) := by
    rw [← present_listed "ORDER BY" (by decide), List.isEmpty_map]
    rfl
  rw [filter_eq_present, Select.clauses]
  simp only [List.map_cons, List.map_nil, projection, named, groups, orders, present_using,
    parts_eq_held, present_flag "DISTINCT" (by decide), present_conditions "WHERE" (by decide),
    present_limit "PER PARTITION LIMIT" (by decide), present_limit "LIMIT" (by decide),
    present_flag "ALLOW FILTERING" (by decide), present_flag "BYPASS CACHE" (by decide)]
  rfl

omit ht in
theorem clauses_saidInsert :
    ((saidInsert table ss).clauses.filter fun c => !c.isEmpty) = template .insert table ss := by
  have names : (saidInsert table ss).assigned.keys =
      (Entries.keys (ss.filterMap Step.assignment?)).eraseDups := by
    rw [saidInsert, Entries.keys_settled, Entries.keys, Entries.keys, List.map_map]
    rfl
  have columns (text : String) : present (text ++ ")") = [text ++ ")"] := by
    have hb : ")" ≠ "" := by decide
    exact present_of_ne fun he => hb (String.append_eq_empty_iff.1 he).2
  rw [filter_eq_present, Insert.clauses]
  simp only [List.map_cons, List.map_nil, names, columns, present_using, parts_eq_held,
    present_flag "IF NOT EXISTS" (by decide)]
  rfl

theorem clauses_saidUpdate (hd : Demand.Agreed (ss.filterMap Step.demand?))
    (ha : (ss.filterMap Step.assignment?).isEmpty = false) :
    ((saidUpdate table ss).clauses.filter fun c => !c.isEmpty) = template .update table ss := by
  have named : present (saidUpdate table ss).table = [table] := present_of_ne ht
  have guard : present (saidUpdate table ss).guard.clause = demandsText ss := present_guard hd
  have assigned : (saidUpdate table ss).assigned.isEmpty = false :=
    (Entries.settled_isEmpty _).trans ha
  have set : present ("SET " ++ Text.join ", "
      ((saidUpdate table ss).assigned.map fun e => e.2.text e.1)) = listedBehind "SET" ", "
        ((saidUpdate table ss).assigned.map fun e => e.2.text e.1) := by
    rw [← present_listed "SET" (by decide), List.isEmpty_map, assigned]
    rfl
  rw [filter_eq_present, Update.clauses]
  simp only [List.map_cons, List.map_nil, named, guard, set, present_using, parts_eq_held,
    present_conditions "WHERE" (by decide)]
  rfl

theorem clauses_saidDelete (hd : Demand.Agreed (ss.filterMap Step.demand?))
    (hc : "" ∉ ss.flatMap Step.columns) (hk : ∀ s ∈ ss, s.kind = .delete) :
    ((saidDelete table ss).clauses.filter fun c => !c.isEmpty) = template .delete table ss := by
  have named : present (saidDelete table ss).table = [table] := present_of_ne ht
  have guard : present (saidDelete table ss).guard.clause = demandsText ss := present_guard hd
  have columns : present (Text.join ", " (saidDelete table ss).columns) =
      listed ", " (ss.flatMap Step.columns) := present_join ", " hc
  have ttl : (saidDelete table ss).settings.ttl = none := by
    -- what is deleted does not live on, and no step of a delete says how long
    have hs : ss.filterMap Step.ttl? = [] := by
      refine List.filterMap_eq_nil_iff.2 fun s hs => ?_
      obtain ⟨s, rfl⟩ : ∃ t, s = .delete t := by
        have hd := hk s hs
        cases s with
        | delete s => exact ⟨s, rfl⟩
        | _ => cases hd
      cases s <;> rfl
    exact congrArg List.getLast? hs
  rw [filter_eq_present, Delete.clauses]
  simp only [List.map_cons, List.map_nil, named, guard, columns, present_using, parts_eq_held, ttl,
    Option.map_none, held_none, List.append_nil, present_conditions "WHERE" (by decide)]
  rfl

end

/-- a select and a delete are built, and an insert and an update are unless they were assigned
nothing; and what is built has the clauses of the template -/
theorem clauses_said {kind : Kind} {table : String} {ss : List Step}
    (hd : Demand.Agreed (ss.filterMap Step.demand?)) (hk : ∀ s ∈ ss, s.kind = kind) :
    ((∀ a : Assigning, a.kind = kind → ss.filterMap Step.assignment? ≠ []) ∧
      ∃ built, (said kind table ss).build = .ok built ∧
        (table ≠ "" → "" ∉ ss.flatMap Step.columns →
          built.text = Text.join " " (template kind table ss))) ∨
    ∃ a : Assigning, a.kind = kind ∧ ss.filterMap Step.assignment? = [] ∧
      (said kind table ss).build = .error (.builder (.noAssignments a)) := by
  cases kind with
  | select =>
    have hwrite (a : Assigning) : a.kind ≠ .select := by cases a <;> nofun
    refine .inl ⟨fun a ha => absurd ha (hwrite a), _, rfl, fun ht hc => ?_⟩
    rw [filter_own hk]
    exact congrArg (Text.join " ") (clauses_saidSelect ht hc)
  | insert =>
    cases ha : (ss.filterMap Step.assignment?).isEmpty with
    | true =>
      exact .inr ⟨.insert, rfl, List.isEmpty_iff.1 ha, (build_insert table hk).trans (if_pos ha)⟩
    | false =>
      have hbuild := (build_insert table hk).trans (if_neg (ne_true_of_eq_false ha))
      refine .inl ⟨fun _ _ => List.isEmpty_eq_false_iff.1 ha, _, hbuild, fun _ _ => ?_⟩
      exact congrArg (Text.join " ") clauses_saidInsert
  | update =>
    cases ha : (ss.filterMap Step.assignment?).isEmpty with
    | true =>
      exact .inr ⟨.update, rfl, List.isEmpty_iff.1 ha, (build_update table hk).trans (if_pos ha)⟩
    | false =>
      have hbuild := (build_update table hk).trans (if_neg (ne_true_of_eq_false ha))
      refine .inl ⟨fun _ _ => List.isEmpty_eq_false_iff.1 ha, _, hbuild, fun ht _ => ?_⟩
      exact congrArg (Text.join " ") (clauses_saidUpdate ht hd ha)
  | delete =>
    have hwrite (a : Assigning) : a.kind ≠ .delete := by cases a <;> nofun
    refine .inl ⟨fun a ha => absurd ha (hwrite a), _, rfl, fun ht hc => ?_⟩
    rw [filter_own hk]
    exact congrArg (Text.join " ") (clauses_saidDelete ht hd hc hk)

/-- A new query and the steps it is built with.  Steps that agree clause by clause fare alike, and
the queries are built alike and sent alike, however the clauses are mixed.  Every select and every
delete is built, and an insert or an update unless none of the steps that were taken assigned
anything, which is all that is then told.  The text is the template of the steps that were taken,
with a blank between clauses. -/
theorem built_by_clauses (kind : Kind) (table : String) :
    (∀ as bs : List Step, (∀ clause, restrict kind clause as = restrict kind clause bs) →
      (∀ clause, ((ofTable kind table).outcomes as).filter (fun o => o.1.touches kind clause) =
        ((ofTable kind table).outcomes bs).filter fun o => o.1.touches kind clause) ∧
      ((ofTable kind table).run as).build = ((ofTable kind table).run bs).build ∧
      ((ofTable kind table).run as).statement = ((ofTable kind table).run bs).statement) ∧
    ∀ steps : List Step,
      let ss := taken kind table steps
      let q := (ofTable kind table).run steps
      ((∀ a : Assigning, a.kind = kind → ss.filterMap Step.assignment? ≠ []) ∧
        ∃ built, q.build = .ok built ∧
          (table ≠ "" → (∀ s ∈ steps, "" ∉ s.columns) →
            built.text = Text.join " " (template kind table ss))) ∨
      ∃ a : Assigning, a.kind = kind ∧ ss.filterMap Step.assignment? = [] ∧
        q.build = .error (.builder (.noAssignments a)) := by
  refine ⟨?_, ?_⟩
  · intro as bs h
    have hrun : (ofTable kind table).run as = (ofTable kind table).run bs := by
      rw [run_ofTable, run_ofTable, said_congr h]
    refine ⟨fun clause => ?_, by rw [hrun], by rw [hrun]⟩
    rw [outcomes_restrict, outcomes_restrict, h]
  · intro steps ss q
    have hq : q = said kind table ss := run_eq_said_taken kind table steps
    rw [hq]
    rcases clauses_said (agreed_taken kind table steps) fun _ hs => kind_of_mem_taken hs with
      ⟨hassigned, built, hbuilt, htext⟩ | hnone
    · refine .inl ⟨hassigned, built, hbuilt, fun ht hc => htext ht fun hm => ?_⟩
      obtain ⟨s, hs, he⟩ := List.mem_flatMap.1 hm
      exact hc s ((taken_sublist kind table steps).subset hs) he
    · exact .inr hnone

/-- an update in two orders, where a demand for the row comes too late in both and a counter is
assigned in both; a delete whose condition comes too late; and an update of which no assignment was
taken -/
theorem built_by_clauses_refusing :
    let condition : Step := .update (.ifFragment ⟨"b = ?", [.int 1]⟩)
    let row : Step := .update .ifExists
    let assign : Step := .update (.change .assign "a" (.string "x"))
    let count : Step := .update (.change .assign "c" (.counter 2))
    let key : Step := .update (.whereAll "k = ?" [.unit])
    let short : Step := .update (.ttl 5)
    let long : Step := .update (.ttl 9)
    let as := [condition, assign, row, key, short, count, long]
    let bs := [key, short, condition, long, assign, count, row]
    let cs : List Step := [.delete (.whereFragment ⟨"k = ?", [.int 7]⟩), .delete .ifExists,
      .delete (.columns ["d", "e"]), .delete (.ifFragment ⟨"b = ?", [.int 1]⟩)]
    let q := ofTable .update "t"
    ((∀ clause, restrict .update clause as = restrict .update clause bs) ∧
      "t" ≠ "" ∧ (∀ s ∈ as, "" ∉ s.columns) ∧ ∀ s ∈ cs, "" ∉ s.columns) ∧
    (∀ clause, (q.outcomes as).filter (fun o => o.1.touches .update clause) =
      (q.outcomes bs).filter fun o => o.1.touches .update clause) ∧
    (q.run as).build = (q.run bs).build ∧ (q.run as).statement = (q.run bs).statement ∧
    (∃ built, (q.run as).build = .ok built ∧
      built.text = "UPDATE t USING TTL 9 SET a = ? IF b = ? WHERE k = ?") ∧
    (∃ built, ((ofTable .delete "t").run cs).build = .ok built ∧
      built.text = "DELETE d, e FROM t IF EXISTS WHERE k = ?") ∧
    (q.run [count, key]).build = .error (.builder (.noAssignments .update)) := by
  have hupdate : template .update "t" [.update (.ifFragment ⟨"b = ?", [.int 1]⟩),
      .update (.change .assign "a" (.string "x")), .update (.whereAll "k = ?" [.unit]),
      .update (.ttl 5), .update (.ttl 9)] =
        ["UPDATE", "t", "USING TTL 9", "SET a = ?", "IF b = ?", "WHERE k = ?"] := by rfl
  have hdelete : template .delete "t" [.delete (.whereFragment ⟨"k = ?", [.int 7]⟩),
      .delete .ifExists, .delete (.columns ["d", "e"])] =
        ["DELETE", "d, e", "FROM", "t", "IF EXISTS", "WHERE k = ?"] := by rfl
  intro condition row assign count key short long as bs cs q
  have hr : ∀ clause, restrict .update clause as = restrict .update clause bs := by
    intro clause
    cases clause <;> rfl
  have has : ∀ s ∈ as, "" ∉ s.columns := by
    simp [as, condition, row, assign, count, key, short, long]
  have hcs : ∀ s ∈ cs, "" ∉ s.columns := by simp [cs]
  have ht : "t" ≠ "" := by decide
  obtain ⟨ho, hb, hs⟩ := (built_by_clauses .update "t").1 as bs hr
  refine ⟨⟨hr, ht, has, hcs⟩, ho, hb, hs, ?_, ?_, ?_⟩
  · have htaken : taken .update "t" as = [condition, assign, key, short, long] := rfl
    rcases (built_by_clauses .update "t").2 as with ⟨-, built, hbuilt, htext⟩ | ⟨_, -, hnone, -⟩
    · refine ⟨built, hbuilt, ?_⟩
      rw [htext ht has, htaken]
      exact congrArg (Text.join " ") hupdate
    · cases hnone
  · have htaken : taken .delete "t" cs = cs.take 3 := rfl
    rcases (built_by_clauses .delete "t").2 cs with ⟨-, built, hbuilt, htext⟩ | ⟨a, ha, -⟩
    · refine ⟨built, hbuilt, ?_⟩
      rw [htext ht hcs, htaken]
      exact congrArg (Text.join " ") hdelete
    · cases a <;> cases ha
  · rcases (built_by_clauses .update "t").2 [count, key] with ⟨hassigned, -⟩ | ⟨a, ha, -, hnone⟩
    · exact absurd rfl (hassigned .update rfl)
    · cases a with
      | insert => cases ha
      | update => exact hnone

end Query

end Cql
