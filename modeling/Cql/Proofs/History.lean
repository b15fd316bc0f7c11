import Cql.Query.History
import Mathlib.Data.List.Basic
import Mathlib.Data.List.Induction
import Mathlib.Data.List.Nodup

/-!
# Running the steps of a query

A query that was built step by step is the one that all its steps together have said, whatever
became of each of them.  Every clause is followed on its own: `settled_concat`, `lastOf_concat`,
`ofDemands_row` and `ofDemands_condition` say what one more pair, setting or demand does to what was
there, and `said_concat` puts the clauses together for one more step.

* `settled_concat`   one more pair is put where its key is, or at the end;
* `said_concat`      one more step, taken or refused;
* `run_ofTable`      all steps of a new query.
-/

namespace Cql

@[simp] theorem lastOf_concat {α β : Type} (f : α → Option β) (xs : List α) (x : α) :
    lastOf f (xs ++ [x]) = (f x).or (lastOf f xs) := by
  unfold lastOf
  cases h : f x <;> simp [h]

/-! ## columns that are said more than once -/

namespace Entries
variable {κ ν : Type} [BEq κ]

theorem last?_concat (k : κ) (es : List (κ × ν)) (e : κ × ν) :
    last? k (es ++ [e]) = if k == e.1 then some e.2 else last? k es := by
  unfold last?
  rw [List.reverse_append, List.lookup_append, List.reverse_singleton, List.lookup_cons]
  cases k == e.1 <;> simp

variable [LawfulBEq κ]

theorem isSome_last? {k : κ} {es : List (κ × ν)} : (last? k es).isSome ↔ k ∈ keys es := by
  induction es using List.reverseRecOn with
  | nil => simp [last?, keys]
  | append_singleton es e ih =>
    have hk : keys (es ++ [e]) = keys es ++ [e.1] := List.map_append
    rw [last?_concat, hk]
    by_cases h : k = e.1 <;> simp [h, ih]

theorem eraseDups_concat (ks : List κ) (k : κ) :
    (ks ++ [k]).eraseDups = if ks.contains k then ks.eraseDups else ks.eraseDups ++ [k] := by
  have hr : [k].removeAll ks = if ks.contains k then [] else [k] := by
    cases h : ks.contains k <;> simp_all [List.removeAll]
  rw [List.eraseDups_append, hr]
  cases ks.contains k <;> simp [List.eraseDups_cons]

theorem nodup_eraseDups (ks : List κ) : ks.eraseDups.Nodup := by
  induction ks using List.reverseRecOn with
  | nil => exact List.nodup_nil
  | append_singleton ks k ih =>
    rw [eraseDups_concat]
    cases h : ks.contains k with
    | true => exact ih
    | false =>
      have hk : k ∉ ks.eraseDups := by simpa [List.mem_eraseDups] using h
      simpa using List.Nodup.concat hk ih

/-- what `g` has for the keys `ks`, once `k` is given the value `v` -/
theorem put_filterMap (g : κ → Option ν) (k : κ) (v : ν) {ks : List κ} (hn : ks.Nodup)
    (hg : ∀ j ∈ ks, (g j).isSome) :
    put k v (ks.filterMap fun j => (g j).map fun w => (j, w)) =
      (if ks.contains k then ks else ks ++ [k]).filterMap
        fun j => (if j == k then some v else g j).map fun w => (j, w) := by
  induction ks with
  | nil => simp [put]
  | cons j ks ih =>
    obtain ⟨hj, hn⟩ := List.nodup_cons.1 hn
    obtain ⟨hgj, hg⟩ := List.forall_mem_cons.1 hg
    obtain ⟨w, hw⟩ := Option.isSome_iff_exists.1 hgj
    by_cases h : k = j
    · subst h
      have hks : (ks.filterMap fun j => (g j).map fun w => (j, w)) =
          ks.filterMap fun j => (if j == k then some v else g j).map fun w => (j, w) := by
        refine List.filterMap_congr fun i hi => ?_
        have hne : i ≠ k := fun e => hj (e ▸ hi)
        simp [hne]
      simp [put, hw, hks]
    · have hne : ¬j = k := fun e => h e.symm
      have hi := ih hn hg
      by_cases hk : k ∈ ks <;> simp [put, hw, h, hne, hk] at hi ⊢ <;> exact hi

@[simp] theorem settled_concat (es : List (κ × ν)) (e : κ × ν) :
    settled (es ++ [e]) = put e.1 e.2 (settled es) := by
  have hk : keys (es ++ [e]) = keys es ++ [e.1] := List.map_append
  have hg : ∀ j ∈ (keys es).eraseDups, (last? j es).isSome := by
    intro j hj
    exact isSome_last?.2 (List.mem_eraseDups.1 hj)
  have hc : (keys es).eraseDups.contains e.1 = (keys es).contains e.1 := by
    rw [Bool.eq_iff_iff]
    simp [List.mem_eraseDups]
  unfold settled
  rw [put_filterMap _ _ _ (nodup_eraseDups _) hg, hk, eraseDups_concat, hc]
  simp only [last?_concat]

/-- every key once, in the place where it was named first -/
theorem keys_settled (es : List (κ × ν)) : keys (settled es) = (keys es).eraseDups := by
  induction es using List.reverseRecOn with
  | nil => rfl
  | append_singleton es e ih =>
    have hk : keys (es ++ [e]) = keys es ++ [e.1] := List.map_append
    rw [settled_concat, keys_put, ih, hk, eraseDups_concat]
    by_cases h : e.1 ∈ keys es <;> simp [List.mem_eraseDups, h]

theorem settled_isEmpty (es : List (κ × ν)) : (settled es).isEmpty = es.isEmpty := by
  cases es with
  | nil => rfl
  | cons e es =>
    have hk := keys_settled (e :: es)
    rw [keys_cons, List.eraseDups_cons] at hk
    cases hs : settled (e :: es) with
    | nil =>
      rw [hs] at hk
      cases hk
    | cons => rfl

end Entries

/-! ## demands on a write -/

namespace Guard

/-- the guard after a demand, as it was if the demand is refused -/
def hear (g : Guard) : Except BuilderError Guard → Guard
  | .ok g' => g'
  | .error _ => g

theorem ofDemands_row (ds : List Demand) :
    ofDemands (ds ++ [.row]) = (ofDemands ds).hear (ofDemands ds).requireExists := by
  cases ds with
  | nil => rfl
  | cons d ds => cases d <;> simp [ofDemands, requireExists, hear, Demand.condition?]

theorem ofDemands_condition (ds : List Demand) (f : Fragment) :
    ofDemands (ds ++ [.condition f]) = (ofDemands ds).hear ((ofDemands ds).require f) := by
  cases ds with
  | nil => rfl
  | cons d ds => cases d <;> simp [ofDemands, require, hear, Demand.condition?]

end Guard

theorem Update.step_ifAll {clause : String} {data : List Host} {f : Fragment}
    (h : Fragment.bind clause data = .ok f) (q : Update) :
    q.step (.ifAll clause data) = q.guarded (q.guard.require f) := by
  simp [Update.step, h]

theorem Delete.step_ifAll {clause : String} {data : List Host} {f : Fragment}
    (h : Fragment.bind clause data = .ok f) (q : Delete) :
    q.step (.ifAll clause data) = q.guarded (q.guard.require f) := by
  simp [Delete.step, h]

/-! ## one more step -/

namespace Query

section
variable (table : String) (ss : List Step)

theorem saidSelect_concat (s : SelectStep) :
    (select (saidSelect table ss)).advance (.select s) =
      select (saidSelect table (ss ++ [.select s])) := by
  cases s with
  | whereAll clause data =>
    cases h : Fragment.bind clause data <;> simp [saidSelect, advance, step, Select.step, h]
  | _ => simp [saidSelect, advance, step, Select.step]

theorem saidInsert_concat (s : InsertStep) :
    (insert (saidInsert table ss)).advance (.insert s) =
      insert (saidInsert table (ss ++ [.insert s])) := by
  cases s with
  | set column x =>
    cases h : x.bind with
    | error e => simp [saidInsert, saidSettings, advance, step, Insert.step, h, Step.change?]
    | ok v =>
      by_cases hc : v.isCounter <;>
        simp [saidInsert, saidSettings, advance, step, Insert.step, Insert.assign, h, hc,
          Step.change?]
  | setNull column => simp [saidInsert, saidSettings, advance, step, Insert.step]
  | _ => simp [saidInsert, saidSettings, advance, step, Insert.step, List.filterMap_cons]

theorem advance_update_guarded {q : Update} {s : UpdateStep} {g : Except BuilderError Guard}
    (h : q.step s = q.guarded g) :
    (update q).advance (.update s) = update { q with guard := q.guard.hear g } := by
  cases g <;> simp [advance, step, h, Update.guarded, Guard.hear]

theorem advance_delete_guarded {q : Delete} {s : DeleteStep} {g : Except BuilderError Guard}
    (h : q.step s = q.guarded g) :
    (delete q).advance (.delete s) = delete { q with guard := q.guard.hear g } := by
  cases g <;> simp [advance, step, h, Delete.guarded, Guard.hear]

theorem saidUpdate_concat (s : UpdateStep) :
    (update (saidUpdate table ss)).advance (.update s) =
      update (saidUpdate table (ss ++ [.update s])) := by
  cases s with
  | change how column x =>
    cases h : x.bind with
    | error e =>
      simp [saidUpdate, saidGuard, saidSettings, advance, step, Update.step, h, Step.change?,
        List.filterMap_cons]
    | ok v =>
      by_cases hc : how = .assign ∧ v.isCounter <;>
        simp [saidUpdate, saidGuard, saidSettings, advance, step, Update.step, Update.assign, h, hc,
          Step.change?, List.filterMap_cons]
  | whereAll clause data =>
    cases h : Fragment.bind clause data <;>
      simp [saidUpdate, saidGuard, saidSettings, advance, step, Update.step, h,
        List.filterMap_cons]
  | ifAll clause data =>
    cases h : Fragment.bind clause data with
    | error e =>
      simp [saidUpdate, saidGuard, saidSettings, advance, step, Update.step, h,
        List.filterMap_cons]
    | ok f =>
      rw [advance_update_guarded (Update.step_ifAll h _)]
      simp [saidUpdate, saidGuard, saidSettings, h, List.filterMap_cons, Guard.ofDemands_condition]
  | ifFragment f =>
    rw [advance_update_guarded rfl]
    simp [saidUpdate, saidGuard, saidSettings, List.filterMap_cons, Guard.ofDemands_condition]
  | ifExists =>
    rw [advance_update_guarded rfl]
    simp [saidUpdate, saidGuard, saidSettings, List.filterMap_cons, Guard.ofDemands_row]
  | _ =>
    simp [saidUpdate, saidGuard, saidSettings, advance, step, Update.step, List.filterMap_cons]

theorem saidDelete_concat (s : DeleteStep) :
    (delete (saidDelete table ss)).advance (.delete s) =
      delete (saidDelete table (ss ++ [.delete s])) := by
  cases s with
  | whereAll clause data =>
    cases h : Fragment.bind clause data <;>
      simp [saidDelete, saidGuard, saidSettings, advance, step, Delete.step, h,
        List.filterMap_cons]
  | ifAll clause data =>
    cases h : Fragment.bind clause data with
    | error e =>
      simp [saidDelete, saidGuard, saidSettings, advance, step, Delete.step, h,
        List.filterMap_cons]
    | ok f =>
      rw [advance_delete_guarded (Delete.step_ifAll h _)]
      simp [saidDelete, saidGuard, saidSettings, h, List.filterMap_cons, Guard.ofDemands_condition]
  | ifFragment f =>
    rw [advance_delete_guarded rfl]
    simp [saidDelete, saidGuard, saidSettings, List.filterMap_cons, Guard.ofDemands_condition]
  | ifExists =>
    rw [advance_delete_guarded rfl]
    simp [saidDelete, saidGuard, saidSettings, List.filterMap_cons, Guard.ofDemands_row]
  | _ =>
    simp [saidDelete, saidGuard, saidSettings, advance, step, Delete.step, List.filterMap_cons]

/-! ## all steps -/

theorem said_nil (kind : Kind) : said kind table [] = ofTable kind table := by
  cases kind <;> rfl

theorem said_concat (kind : Kind) (s : Step) :
    (said kind table ss).advance s = said kind table (ss ++ [s]) := by
  by_cases hk : s.kind = kind
  · have hf : (ss ++ [s]).filter (fun s => s.kind == kind) =
        ss.filter (fun s => s.kind == kind) ++ [s] := by simp [hk]
    unfold said
    rw [hf]
    subst hk
    cases s with
    | select s => exact saidSelect_concat table _ s
    | insert s => exact saidInsert_concat table _ s
    | update s => exact saidUpdate_concat table _ s
    | delete s => exact saidDelete_concat table _ s
  · have hf : (ss ++ [s]).filter (fun s => s.kind == kind) =
        ss.filter (fun s => s.kind == kind) := by simp [hk]
    unfold said
    rw [hf]
    cases kind <;> cases s <;> first | rfl | exact absurd rfl hk

end

/-- a query built step by step is what all its steps have said -/
theorem run_ofTable (kind : Kind) (table : String) (steps : List Step) :
    (ofTable kind table).run steps = said kind table steps := by
  induction steps using List.reverseRecOn with
  | nil => exact (said_nil table kind).symm
  | append_singleton ss s ih => rw [run_append, ih, run_cons, run_nil, said_concat]

end Query

end Cql
