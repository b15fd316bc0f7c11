import Cql.Query.Demands
import Cql.Proofs.Assignments

/-!
# Demands on a write exclude each other

The demands that a query has taken are all for its row, or all for conditions (`agreed_taken`), and
its guard is read off them.  So a demand is refused exactly when one of the other kind was taken
before, and the statement has the one condition or the other.

* `requireExists_refused`, `require_refused`   the next demand, after demands of one kind;
* `written_ofDemands`                          what the guard puts into the statement;
* `demands_exclude`                            any run of steps.
-/

namespace Cql

open Query (refusedFor)

/-! ## the guard of demands of one kind -/

namespace Demand
variable {ds : List Demand}

/-- whoever depends on the row does not depend on a condition -/
theorem Agreed.condition_notMem (h : Agreed ds) (hrow : row ∈ ds) (f : Fragment) :
    condition f ∉ ds := by
  intro hf
  rcases h with h | h
  · exact Bool.noConfusion (h _ hf)
  · exact Bool.noConfusion (h _ hrow)

theorem eq_row {d : Demand} (h : d.isRow = true) : d = row := by
  cases d with
  | row => rfl
  | condition f => cases h

theorem map_condition {ds : List Demand} (h : ∀ d ∈ ds, d.isRow = false) :
    (ds.filterMap condition?).map condition = ds := by
  induction ds with
  | nil => rfl
  | cons d ds ih =>
    obtain ⟨hd, hds⟩ := List.forall_mem_cons.1 h
    cases d with
    | row => cases hd
    | condition f => exact congrArg (List.cons (condition f)) (ih hds)

end Demand

namespace Guard
variable {ds : List Demand} (h : Demand.Agreed ds)
include h

theorem requireExists_refused {e : Error} :
    refusedFor (ofDemands ds).requireExists = some e ↔
      e = .builder .conflictingConditions ∧ ∃ f, Demand.condition f ∈ ds := by
  cases ds with
  | nil => exact iff_of_false nofun fun ⟨_, _, hf⟩ => nomatch hf
  | cons d ds =>
    cases d with
    | row =>
      refine iff_of_false nofun ?_
      rintro ⟨-, f, hf⟩
      exact h.condition_notMem List.mem_cons_self f hf
    | condition f =>
      have hr : refusedFor (ofDemands (.condition f :: ds)).requireExists =
          some (.builder .conflictingConditions) := rfl
      rw [hr, Option.some_inj, eq_comm]
      exact (and_iff_left ⟨f, List.mem_cons_self⟩).symm

theorem require_refused (f : Fragment) {e : Error} :
    refusedFor ((ofDemands ds).require f) = some e ↔
      e = .builder .conflictingConditions ∧ Demand.row ∈ ds := by
  cases ds with
  | nil => exact iff_of_false nofun fun ⟨_, hf⟩ => nomatch hf
  | cons d ds =>
    cases d with
    | row =>
      have hr : refusedFor ((ofDemands (.row :: ds)).require f) =
          some (.builder .conflictingConditions) := rfl
      rw [hr, Option.some_inj, eq_comm]
      exact (and_iff_left List.mem_cons_self).symm
    | condition g =>
      refine iff_of_false nofun ?_
      rintro ⟨-, hrow⟩
      exact h.condition_notMem hrow g List.mem_cons_self

theorem ofDemands_of_row (hrow : Demand.row ∈ ds) : ofDemands ds = ifExists := by
  cases ds with
  | nil => cases hrow
  | cons d ds =>
    cases d with
    | row => rfl
    | condition f => exact absurd List.mem_cons_self (h.condition_notMem hrow f)

/-- the first demand tells what all of them are -/
theorem written_ofDemands :
    Demand.Written ds (Query.present (ofDemands ds).clause) (ofDemands ds).values := by
  cases ds with
  | nil => exact .nothing
  | cons d ds =>
    cases d with
    | row =>
      have hs := h.resolve_right fun hn => Bool.noConfusion (hn _ List.mem_cons_self)
      exact .row (List.cons_ne_nil _ _) fun d hd => Demand.eq_row (hs d hd)
    | condition f =>
      have hs := h.resolve_left fun hn => Bool.noConfusion (hn _ List.mem_cons_self)
      have hfs := Demand.map_condition (List.forall_mem_cons.1 hs).2
      have hw := Demand.Written.conditions (List.cons_ne_nil f (ds.filterMap Demand.condition?))
      rw [List.map_cons, hfs] at hw
      rwa [← Query.present_of_ne (Query.append_ne (by decide) _)] at hw

end Guard

theorem joinClauses_present (as bs : List String) (c : String) :
    joinClauses (as ++ [c] ++ bs) = joinClauses (as ++ Query.present c ++ bs) := by
  have hc : ([c].filter fun c => !c.isEmpty) = (Query.present c).filter fun c => !c.isEmpty := by
    unfold Query.present
    cases h : c.isEmpty <;> simp [h]
  unfold joinClauses
  rw [List.filter_append, List.filter_append, hc, List.filter_append, List.filter_append]

namespace Query

/-! ## one more demand -/

section
variable (w : Conditional) (table : String) {ss : List Step} (own : ∀ s ∈ ss, s.kind = w.kind)
include own

theorem refusal?_ifExists : (said w.kind table ss).refusal? w.ifExists =
    refusedFor (saidGuard ss).requireExists := by
  cases w with
  | update =>
    show (said .update table ss).refusal? _ = _
    rw [said_update table own]
    exact refusal?_update_guarded rfl
  | delete =>
    show (said .delete table ss).refusal? _ = _
    rw [said_delete table own]
    exact refusal?_delete_guarded rfl

theorem refusal?_ifFragment (f : Fragment) : (said w.kind table ss).refusal? (w.ifFragment f) =
    refusedFor ((saidGuard ss).require f) := by
  cases w with
  | update =>
    show (said .update table ss).refusal? _ = _
    rw [said_update table own]
    exact refusal?_update_guarded rfl
  | delete =>
    show (said .delete table ss).refusal? _ = _
    rw [said_delete table own]
    exact refusal?_delete_guarded rfl

/-- data that cannot be bound is told before a conflict -/
theorem refusal?_ifAll (clause : String) (data : List Host) :
    (said w.kind table ss).refusal? (w.ifAll clause data) =
      match Host.bindAll data with
      | .error b => some (.binding b)
      | .ok vs => refusedFor ((saidGuard ss).require ⟨clause, vs⟩) := by
  have hf : Fragment.bind clause data = (Host.bindAll data).map fun vs => ⟨clause, vs⟩ := rfl
  cases w with
  | update =>
    show (said .update table ss).refusal? _ = _
    rw [said_update table own]
    cases hb : Host.bindAll data with
    | error b => simp [Conditional.ifAll, refusal?, step, Update.step, hf, hb]
    | ok vs =>
      rw [hb] at hf
      exact refusal?_update_guarded (Update.step_ifAll hf _)
  | delete =>
    show (said .delete table ss).refusal? _ = _
    rw [said_delete table own]
    cases hb : Host.bindAll data with
    | error b => simp [Conditional.ifAll, refusal?, step, Delete.step, hf, hb]
    | ok vs =>
      rw [hb] at hf
      exact refusal?_delete_guarded (Delete.step_ifAll hf _)

/-- a write that depends on its row already is not changed by asking for it again -/
theorem advance_ifExists (hg : saidGuard ss = .ifExists) :
    (said w.kind table ss).advance w.ifExists = said w.kind table ss := by
  have hsame : (saidGuard ss).hear (saidGuard ss).requireExists = saidGuard ss := by
    rw [hg]
    rfl
  cases w with
  | update =>
    show (said .update table ss).advance (.update .ifExists) = said .update table ss
    rw [said_update table own, advance_update_guarded rfl]
    show update { saidUpdate table ss with
      guard := (saidGuard ss).hear (saidGuard ss).requireExists } = _
    rw [hsame]
    rfl
  | delete =>
    show (said .delete table ss).advance (.delete .ifExists) = said .delete table ss
    rw [said_delete table own, advance_delete_guarded rfl]
    show delete { saidDelete table ss with
      guard := (saidGuard ss).hear (saidGuard ss).requireExists } = _
    rw [hsame]
    rfl

/-- the guard stands between what is written and the conditions on rows -/
theorem guards_said :
    ((w = .update → ss.filterMap Step.assignment? ≠ []) ∧
      ∃ built, (said w.kind table ss).build = .ok built ∧
        Guards (present (saidGuard ss).clause) (saidGuard ss).values (ss.filterMap Step.condition?)
          (said w.kind table ss) built) ∨
    w = .update ∧ ss.filterMap Step.assignment? = [] ∧
      (said w.kind table ss).build = .error (.builder (.noAssignments .update)) := by
  cases w with
  | update =>
    show (_ ∧ ∃ built, (said .update table ss).build = _ ∧
      Guards _ _ _ (said .update table ss) built) ∨ _ ∧ _ ∧ (said .update table ss).build = _
    rw [build_update table own]
    split
    · next ha => exact .inr ⟨rfl, List.isEmpty_iff.1 ha, rfl⟩
    · next ha =>
      refine .inl ⟨fun _ => mt List.isEmpty_iff.2 ha, _, rfl, ?_⟩
      have htext : (saidUpdate table ss).text = joinClauses (["UPDATE", table,
          (saidSettings ss).clause, "SET " ++ Text.join ", "
            ((saidUpdate table ss).assigned.map fun e => e.2.text e.1)] ++
          [(saidGuard ss).clause] ++ [Fragments.clause "WHERE" (ss.filterMap Step.condition?)]) := rfl
      rw [said_update table own, htext, joinClauses_present]
      exact .update (saidUpdate table ss)
  | delete =>
    have hq : said .delete table ss = delete (saidDelete table ss) := said_delete table own
    show (_ ∧ ∃ built, (said .delete table ss).build = _ ∧
      Guards _ _ _ (said .delete table ss) built) ∨ _
    rw [hq]
    refine .inl ⟨nofun, _, rfl, ?_⟩
    have htext : (saidDelete table ss).text = joinClauses (["DELETE",
        Text.join ", " (ss.flatMap Step.columns), "FROM", table, (saidSettings ss).clause] ++
        [(saidGuard ss).clause] ++ [Fragments.clause "WHERE" (ss.filterMap Step.condition?)]) := rfl
    rw [htext, joinClauses_present]
    exact .delete (saidDelete table ss)

end

/-! ## any run of steps -/

/-- the ways to make a write depend on something -/
theorem demanding {w : Conditional} {s : Step} (hk : s.kind = w.kind) (hc : s.clause = .guard) :
    s = w.ifExists ∨ (∃ f, s = w.ifFragment f) ∨ ∃ clause data, s = w.ifAll clause data := by
  cases w with
  | update =>
    cases s with
    | update s =>
      cases s with
      | ifExists => exact .inl rfl
      | ifFragment f => exact .inr (.inl ⟨f, rfl⟩)
      | ifAll clause data => exact .inr (.inr ⟨clause, data, rfl⟩)
      | _ => cases hc
    | _ => cases hk
  | delete =>
    cases s with
    | delete s =>
      cases s with
      | ifExists => exact .inl rfl
      | ifFragment f => exact .inr (.inl ⟨f, rfl⟩)
      | ifAll clause data => exact .inr (.inr ⟨clause, data, rfl⟩)
      | _ => cases hc
    | _ => cases hk

theorem demand?_ifExists (w : Conditional) : w.ifExists.demand? = some .row := by
  cases w <;> rfl

theorem demand?_ifFragment (w : Conditional) (f : Fragment) :
    (w.ifFragment f).demand? = some (.condition f) := by
  cases w <;> rfl

theorem demand?_ifAll (w : Conditional) (clause : String) (data : List Host) :
    (w.ifAll clause data).demand? =
      (Host.bindAll data).toOption.map fun vs => .condition ⟨clause, vs⟩ := by
  have hf : Fragment.bind clause data = (Host.bindAll data).map fun vs => ⟨clause, vs⟩ := rfl
  cases w <;> cases hb : Host.bindAll data <;> simp [Conditional.ifAll, hf, hb]

section
variable (w : Conditional) (table : String) (steps : List Step)

/-- a demand that was taken could be bound -/
theorem demand?_of_taken :
    ∀ s ∈ taken w.kind table steps, s.clause = .guard → s.demand?.isSome := by
  induction steps using List.reverseRecOn with
  | nil => exact fun _ hs => nomatch hs
  | append_singleton ss s ih =>
    rcases taken_concat w.kind table ss s with ⟨hk, hr, ht⟩ | ⟨-, ht⟩
    · rw [ht]
      refine List.forall_mem_append.2 ⟨ih, List.forall_mem_singleton.2 fun hc => ?_⟩
      rcases demanding hk hc with rfl | ⟨f, rfl⟩ | ⟨clause, data, rfl⟩
      · rw [demand?_ifExists]
        rfl
      · rw [demand?_ifFragment]
        rfl
      · rw [run_eq_said_taken, refusal?_ifAll w table fun _ hs => kind_of_mem_taken hs] at hr
        rw [demand?_ifAll]
        cases hb : Host.bindAll data with
        | error b =>
          rw [hb] at hr
          cases hr
        | ok vs => rfl
    · rwa [ht]

theorem advance_of_row (h : Demand.row ∈ demandsTaken w.kind table steps) :
    ((ofTable w.kind table).run steps).advance w.ifExists = (ofTable w.kind table).run steps := by
  rw [run_eq_said_taken]
  exact advance_ifExists w table (fun _ hs => kind_of_mem_taken hs)
    (Guard.ofDemands_of_row (agreed_taken _ _ _) h)

/-- asking twice for the row is asking once -/
theorem advance_twice : (((ofTable w.kind table).run steps).advance w.ifExists).advance w.ifExists =
    ((ofTable w.kind table).run steps).advance w.ifExists := by
  rcases taken_concat w.kind table steps w.ifExists with ⟨-, -, ht⟩ | ⟨hk | ⟨e, hr⟩, -⟩
  · have hrun : ((ofTable w.kind table).run steps).advance w.ifExists =
        (ofTable w.kind table).run (steps ++ [w.ifExists]) := by
      rw [run_append]
      rfl
    have hrow : Demand.row ∈ demandsTaken w.kind table (steps ++ [w.ifExists]) := by
      rw [demandsTaken, ht, List.filterMap_append, List.filterMap_cons_some (demand?_ifExists w)]
      exact List.mem_append_right _ List.mem_cons_self
    rw [hrun, advance_of_row w table _ hrow]
  · cases w <;> exact absurd rfl hk
  · rw [advance_of_refused hr, advance_of_refused hr]

end

/-- The demands on an update or a delete, after any steps.  A demand for the row is refused exactly
when a condition was taken before, and a condition when a demand for the row was, unless its data
cannot be bound, which is told first; whatever is refused leaves all as it was, and asking for the
row again changes nothing.  So the statement depends on nothing, on the row, or on all conditions in
their order, and their values come before those of the conditions on rows.  There is a statement
unless an update has taken no assignment, and then this is told. -/
theorem demands_exclude (w : Conditional) (table : String) (steps : List Step) :
    let q := (ofTable w.kind table).run steps
    let ds := demandsTaken w.kind table steps
    (∀ s ∈ taken w.kind table steps, s.clause = .guard → s.demand?.isSome) ∧
    (∀ e, q.refusal? w.ifExists = some e ↔
      e = .builder .conflictingConditions ∧ ∃ f, Demand.condition f ∈ ds) ∧
    (∀ f e, q.refusal? (w.ifFragment f) = some e ↔
      e = .builder .conflictingConditions ∧ Demand.row ∈ ds) ∧
    (∀ clause data e, q.refusal? (w.ifAll clause data) = some e ↔
      (∃ b, Host.bindAll data = .error b ∧ e = .binding b) ∨
      (∃ vs, Host.bindAll data = .ok vs) ∧ e = .builder .conflictingConditions ∧
        Demand.row ∈ ds) ∧
    (∀ s e, q.refusal? s = some e → q.advance s = q) ∧
    (Demand.row ∈ ds → q.refusal? w.ifExists = none ∧ q.advance w.ifExists = q) ∧
    (q.advance w.ifExists).advance w.ifExists = q.advance w.ifExists ∧
    ∃ clause values, Demand.Written ds clause values ∧
      (((w = .update → changesMade .update table steps ≠ []) ∧ ∃ built, q.build = .ok built ∧
        Guards clause values ((taken w.kind table steps).filterMap Step.condition?) q built) ∨
      w = .update ∧ changesMade .update table steps = [] ∧
        q.build = .error (.builder (.noAssignments .update))) := by
  intro q ds
  let ss := taken w.kind table steps
  have hq : q = said w.kind table ss := run_eq_said_taken w.kind table steps
  have own : ∀ s ∈ ss, s.kind = w.kind := fun _ hs => kind_of_mem_taken hs
  have hagreed : Demand.Agreed ds := agreed_taken w.kind table steps
  have hguard : saidGuard ss = Guard.ofDemands ds := rfl
  have hexists (e : Error) : q.refusal? w.ifExists = some e ↔
      e = .builder .conflictingConditions ∧ ∃ f, Demand.condition f ∈ ds := by
    rw [hq, refusal?_ifExists w table own, hguard]
    exact Guard.requireExists_refused hagreed
  refine ⟨demand?_of_taken w table steps, hexists, ?_, ?_, fun s e => advance_of_refused, ?_,
    advance_twice w table steps, ?_⟩
  · intro f e
    rw [hq, refusal?_ifFragment w table own, hguard]
    exact Guard.require_refused hagreed f
  · intro clause data e
    rw [hq, refusal?_ifAll w table own, hguard]
    cases Host.bindAll data with
    | error b => simp [eq_comm]
    | ok vs =>
      show refusedFor ((Guard.ofDemands ds).require ⟨clause, vs⟩) = some e ↔ _
      rw [Guard.require_refused hagreed]
      simp
  · intro hrow
    refine ⟨?_, advance_of_row w table steps hrow⟩
    cases hr : q.refusal? w.ifExists with
    | none => rfl
    | some e =>
      obtain ⟨-, f, hf⟩ := (hexists e).1 hr
      exact absurd hf (hagreed.condition_notMem hrow f)
  · refine ⟨_, _, Guard.written_ofDemands hagreed, ?_⟩
    have hmade (hw : w = .update) :
        ss.filterMap Step.assignment? = changesMade .update table steps := by
      subst hw
      exact filterMap_taken .update table steps
    rw [hq]
    rcases guards_said w table own with ⟨hassigned, hbuilt⟩ | ⟨hw, hnone, he⟩
    · exact .inl ⟨fun hw => hmade hw ▸ hassigned hw, hbuilt⟩
    · exact .inr ⟨hw, hmade hw ▸ hnone, he⟩

/-- a delete with conditions in two ways, a demand for the row that comes too late, and data that
does not fit; an update that asks for its row twice, where a condition comes too late; and an update
without assignments -/
theorem demands_exclude_late :
    let broad : Host := .int ⟨.u32, 4294967295, by decide⟩
    let steps : List Step := [.delete (.whereFragment ⟨"k = ?", [.int 1]⟩),
      .delete (.ifAll "a = ?" [.string "x"]), .delete .ifExists, .delete (.ifAll "b = ?" [broad]),
      .delete (.ifFragment ⟨"c IN (?, ?)", [.int 2, .int 3]⟩), .delete (.columns ["d"])]
    let q := (ofTable .delete "t").run steps
    let fs : Fragments := [⟨"a = ?", [.text "x"]⟩, ⟨"c IN (?, ?)", [.int 2, .int 3]⟩]
    let built : Built := ⟨"DELETE d FROM t IF a = ? AND c IN (?, ?) WHERE k = ?",
      [.text "x", .int 2, .int 3, .int 1]⟩
    let late : Fragment := ⟨"b = ?", [.int 4]⟩
    let again : List Step := [.update .ifExists, .update (.change .assign "a" (.string "x")),
      .update (.ifFragment late), .update (.whereFragment ⟨"k = ?", [.int 1]⟩), .update .ifExists]
    let u := (ofTable .update "t").run again
    let written : Built := ⟨"UPDATE t SET a = ? IF EXISTS WHERE k = ?", [.text "x", .int 1]⟩
    (demandsTaken .delete "t" steps = fs.map .condition ∧ q.build = .ok built) ∧
    q.refusal? (.delete .ifExists) = some (.builder .conflictingConditions) ∧
    q.advance (.delete .ifExists) = q ∧
    q.refusal? (.delete (.ifAll "b = ?" [broad])) =
      some (.binding (.integerOutOfRange 4294967295)) ∧
    (∃ clause values, Demand.Written (fs.map .condition) clause values ∧
      Guards clause values [⟨"k = ?", [.int 1]⟩] q built) ∧
    (demandsTaken .update "t" again = [.row, .row] ∧
      changesMade .update "t" again = [("a", ⟨.assign, .text "x"⟩)] ∧ u.build = .ok written) ∧
    u.refusal? (.update (.ifFragment late)) = some (.builder .conflictingConditions) ∧
    u.advance (.update .ifExists) = u ∧
    (∃ clause values, Demand.Written [.row, .row] clause values ∧
      Guards clause values [⟨"k = ?", [.int 1]⟩] u written) ∧
    ((ofTable .update "t").run [.update .ifExists]).build =
      .error (.builder (.noAssignments .update)) := by
  intro broad steps q fs built late again u written
  have hdelete : demandsTaken .delete "t" steps = fs.map .condition ∧ q.build = .ok built :=
    ⟨by rfl, by rfl⟩
  have hupdate : demandsTaken .update "t" again = [.row, .row] ∧
      changesMade .update "t" again = [("a", ⟨.assign, .text "x"⟩)] ∧ u.build = .ok written :=
    ⟨by rfl, by rfl, by rfl⟩
  have hbroad : Host.bindAll [broad] = .error (.integerOutOfRange 4294967295) := by rfl
  obtain ⟨-, hrow, -, hall, hsame, -, -, clause, values, hw, hbuilt⟩ :=
    demands_exclude .delete "t" steps
  obtain ⟨-, -, hcondition, -, -, hagain, -, clause', values', hw', hbuilt'⟩ :=
    demands_exclude .update "t" again
  obtain ⟨-, -, -, -, -, -, -, _, _, -, hbare⟩ := demands_exclude .update "t" [.update .ifExists]
  rw [show demandsTaken Conditional.delete.kind "t" steps = fs.map .condition from hdelete.1]
    at hrow hw
  rw [show demandsTaken Conditional.update.kind "t" again = [.row, .row] from hupdate.1]
    at hcondition hagain hw'
  have hrefused := (hrow _).2 ⟨rfl, _, List.mem_cons_self⟩
  have hunbound := (hall "b = ?" [broad] _).2 (.inl ⟨_, hbroad, rfl⟩)
  have hlate := (hcondition late _).2 ⟨rfl, List.mem_cons_self⟩
  refine ⟨hdelete, hrefused, hsame _ _ hrefused, hunbound, ⟨clause, values, hw, ?_⟩, hupdate, hlate,
    (hagain List.mem_cons_self).2, ⟨clause', values', hw', ?_⟩, ?_⟩
  · rcases hbuilt with ⟨-, b, hok, hg⟩ | ⟨hn, -⟩
    · cases hdelete.2.symm.trans hok
      exact hg
    · cases hn
  · rcases hbuilt' with ⟨-, b, hok, hg⟩ | ⟨-, hnone, -⟩
    · cases hupdate.2.2.symm.trans hok
      exact hg
    · cases hnone
  · rcases hbare with ⟨hassigned, -⟩ | ⟨-, -, hnone⟩
    · exact absurd rfl (hassigned rfl)
    · exact hnone

end Query

end Cql
