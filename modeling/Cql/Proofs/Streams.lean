import Cql.Cursor.Streams
import Cql.Proofs.Told

/-!
# What a stream yields

A stream goes through a cursor read by read, up to the first read that finds no row.  `Runs` is this
run of reads, one constructor for each way in which it goes on or stops, and whatever is said of a
stream is an induction on it: the list of all items (`runs_drain`), the calls of the cursor
(`Runs.calls`), the polls (`Runs.yields`), and where a failure can come from (`Runs.failure`).  The
answers of the run are the front of what the cursor has left to tell (`Runs.told`), so that pages
that are known tell the items (`told_pages`).

* `streams_agree`   all of it, for rows, first cells and host data.
-/

namespace Cql

namespace Cursor

section
variable {α : Type} {f : List ColumnSpec → RawRow → Outcome α}

/-- the reads of a cursor up to the first that finds no row, their answers, and what is left -/
inductive Runs (f : List ColumnSpec → RawRow → Outcome α) :
    Cursor × Session → List (Outcome (Option α)) → Cursor × Session → Prop
  | ended {c d : Cursor} {s t : Session} (h : c.nextBy f s = (.ok none, d, t)) :
      Runs f (c, s) [.ok none] (d, t)
  | failed {c d : Cursor} {s t : Session} {e : Error} (h : c.nextBy f s = (.error e, d, t)) :
      Runs f (c, s) [.error e] (d, t)
  | item {c d : Cursor} {s t : Session} {a : α} {answers : List (Outcome (Option α))}
      {y : Cursor × Session} (h : c.nextBy f s = (.ok (some a), d, t))
      (more : Runs f (d, t) answers y) : Runs f (c, s) (.ok (some a) :: answers) y

/-- the list of all items comes of such a run -/
theorem runs_drain (f : List ColumnSpec → RawRow → Outcome α) (c : Cursor) (s : Session) :
    ∃ answers d, Runs f (c, s) answers (d, (drain f c s).2) ∧ Cut answers (drain f c s).1 := by
  fun_induction drain f c s with
  | case1 c s d t h => exact ⟨_, d, .ended (by rw [nextBy, h]), .ended⟩
  | case2 c s e d t h => exact ⟨_, d, .failed (by rw [nextBy, h]), .failed e⟩
  | case3 c s raw d t h e he =>
    refine ⟨_, d, .failed ?_, .failed e⟩
    rw [nextBy, h]
    dsimp only
    rw [he]
    rfl
  | case4 c s raw d t h a ha more last hmore ih =>
    obtain ⟨answers, d', hruns, hcut⟩ := ih
    rw [hmore] at hruns hcut
    refine ⟨_, d', .item ?_ hruns, .item a hcut⟩
    rw [nextBy, h]
    dsimp only
    rw [ha]
    rfl

theorem drain_item {c d : Cursor} {s t : Session} {raw : RawRow} {a : α}
    (h : c.nextRaw s = (.ok (some raw), d, t)) (ha : f d.columns raw = .ok a) :
    (drain f c s).1 = .ok a :: (drain f d t).1 := by
  rw [drain, h]
  dsimp only
  rw [ha]

theorem drain_failed {c d : Cursor} {s t : Session} {e : Error}
    (h : c.nextRaw s = (.error e, d, t)) : (drain f c s).1 = [.error e] := by
  rw [drain, h]

/-- where the answers are known to be rows up to the end, the items are these rows -/
theorem Cut.of_rows {answers : List (Outcome (Option α))} {items : List (Outcome α)}
    (h : Cut answers items) {seen : List α} {rest : List (Outcome (Option α))}
    (ha : answers ++ rest = seen.map (fun a => .ok (some a)) ++ [.ok none]) :
    items = seen.map .ok := by
  induction h generalizing seen with
  | ended =>
    cases seen with
    | nil => rfl
    | cons a seen => cases ha
  | failed e =>
    cases seen with
    | nil => cases ha
    | cons a seen => cases ha
  | item a _ ih =>
    cases seen with
    | nil => cases ha
    | cons b seen =>
      obtain ⟨hhead, hrest⟩ := List.cons.inj ha
      cases hhead
      rw [List.map_cons, ih hrest]

/-- a failure is the last item -/
theorem Cut.error_last {answers : List (Outcome (Option α))} {items : List (Outcome α)}
    (h : Cut answers items) {i : Nat} {e : Error} (he : items[i]? = some (.error e)) :
    i + 1 = items.length := by
  induction h generalizing i with
  | ended => cases he
  | failed d =>
    cases i with
    | zero => rfl
    | succ i => cases he
  | item a _ ih =>
    cases i with
    | zero => cases he
    | succ i => rw [List.length_cons, ih he]

/-! ## calls -/

theorem Runs.calls {x y : Cursor × Session} {answers : List (Outcome (Option α))}
    (h : Runs f x answers y) {op : CursorOp} {wrap : Option α → CursorAnswer}
    (hop : op.reading? = some ⟨f, wrap⟩) :
    (Cursor.calls x (List.replicate answers.length op)).map CursorCall.answer =
      answers.map (·.map wrap) ∧ afterCalls x (List.replicate answers.length op) = y := by
  have hcall (c : Cursor) (s : Session) :
      call (c, s) op = ⟨op, (c, s), (c.nextBy f s).1.map wrap, (c.nextBy f s).2⟩ := by
    rw [call, perform_reading hop]
    rfl
  induction h with
  | @ended c _ s _ h | @failed c _ s _ _ h =>
    have hc := hcall c s
    rw [h] at hc
    exact ⟨by simp [Cursor.calls, hc], congrArg CursorCall.after hc⟩
  | @item c d s t a answers y h _ ih =>
    have hc := hcall c s
    rw [h] at hc
    obtain ⟨hanswers, hafter⟩ := ih
    rw [List.length_cons, List.replicate_succ, Cursor.calls, hc, List.map_cons, hanswers,
      List.map_cons]
    refine ⟨rfl, ?_⟩
    show afterCalls (call (c, s) op).after _ = y
    rw [hc]
    exact hafter

/-! ## polls -/

theorem polls_closed (f : List ColumnSpec → RawRow → Outcome α) (n : Nat) (s : Session) :
    polls (poll f) n (none, s) = (List.replicate n none, none, s) := by
  induction n with
  | zero => rfl
  | succ n ih =>
    rw [polls, poll]
    dsimp only
    rw [ih]
    rfl

theorem map_getElem?_nil (n : Nat) :
    (List.range n).map (([] : List (Outcome α))[·]?) = List.replicate n none := by
  simp

theorem map_getElem?_cons (a : Outcome α) (items : List (Outcome α)) (n : Nat) :
    (List.range (n + 1)).map ((a :: items)[·]?) =
      some a :: (List.range n).map (items[·]?) := by
  rw [List.range_succ_eq_map, List.map_cons, List.map_map]
  rfl

theorem Runs.yields {x y : Cursor × Session} {answers : List (Outcome (Option α))}
    (h : Runs f x answers y) {items : List (Outcome α)} (hcut : Cut answers items) {op : CursorOp}
    {wrap : Option α → CursorAnswer} (hop : op.reading? = some ⟨f, wrap⟩) :
    Yields (poll f) op x answers.length items := by
  have hafter (c : Cursor) (s : Session) : (call (c, s) op).after = (c.nextBy f s).2 := by
    rw [call, perform_reading hop]
    rfl
  -- a read that finds no row closes the stream
  have hcloses {c d : Cursor} {s t : Session} {a : Outcome (Option α)}
      {item? : Option (Outcome α)} (h : c.nextBy f s = (a, d, t))
      (hpoll : poll f (some c, s) = (item?, none, t)) (n : Nat) :
      (polls (poll f) (n + 1) (some c, s)).1 = item? :: List.replicate n none ∧
        (polls (poll f) (n + 1) (some c, s)).2.2 =
          (afterCalls (c, s) (List.replicate (min (n + 1) 1) op)).2 := by
    have hone : min (n + 1) 1 = 1 := by omega
    rw [polls, hpoll]
    dsimp only
    rw [polls_closed, hone]
    refine ⟨rfl, ?_⟩
    show t = (call (c, s) op).after.2
    rw [hafter, h]
  suffices hboth : ∀ n, (polls (poll f) n (some x.1, x.2)).1 = (List.range n).map (items[·]?) ∧
      (polls (poll f) n (some x.1, x.2)).2.2 =
        (afterCalls x (List.replicate (min n answers.length) op)).2 from
    ⟨fun n => (hboth n).1, fun n => (hboth n).2⟩
  intro n
  induction h generalizing items n with
  | ended h =>
    cases hcut
    cases n with
    | zero => exact ⟨rfl, rfl⟩
    | succ n =>
      rw [map_getElem?_nil]
      exact hcloses h (by rw [poll, h]) n
  | failed h =>
    cases hcut
    cases n with
    | zero => exact ⟨rfl, rfl⟩
    | succ n =>
      rw [map_getElem?_cons, map_getElem?_nil]
      exact hcloses h (by rw [poll, h]) n
  | @item c d s t a answers y h _ ih =>
    cases hcut with
    | item _ hcut =>
      cases n with
      | zero => exact ⟨rfl, rfl⟩
      | succ n =>
        obtain ⟨hitems, hsession⟩ := ih hcut n
        rw [polls, poll, h]
        dsimp only
        rw [hitems, map_getElem?_cons, List.length_cons, Nat.succ_min_succ, List.replicate_succ]
        refine ⟨rfl, hsession.trans ?_⟩
        show _ = (afterCalls (call (c, s) op).after _).2
        rw [hafter, h]

/-- rows that become host data on their way out make no other requests -/
theorem polls_pollAs (sh : Shape) (n : Nat) (x : StreamState) :
    polls (pollAs sh) n x = ((polls (poll RawResult.rowOf) n x).1.map fun row =>
      row.map fun r => r.bind (Row.readAs sh), (polls (poll RawResult.rowOf) n x).2) := by
  induction n generalizing x with
  | zero => rfl
  | succ n ih =>
    rw [polls, polls, pollAs]
    dsimp only
    rw [ih]
    rfl

theorem Yields.as {op : CursorOp} {x : Cursor × Session} {reads : Nat} {items : List (Outcome Row)}
    (h : Yields (poll RawResult.rowOf) op x reads items) (sh : Shape) :
    Yields (pollAs sh) op x reads (items.map fun r => r.bind (Row.readAs sh)) where
  yields n := by
    rw [polls_pollAs, h.yields, List.map_map]
    refine List.map_congr_left fun i _ => ?_
    rw [List.getElem?_map]
    rfl
  asks n := by
    rw [polls_pollAs]
    exact h.asks n

/-! ## exhaustion -/

/-- one read of a cursor that is not finished -/
theorem nextBy_unfinished {c d : Cursor} {s t : Session} {a : Outcome (Option α)}
    (hf : c.finished = false) (h : c.nextBy f s = (a, d, t)) : s.Later t ∧
      (∀ e, a = .error e → .error e ∈ s.answered t ∨ ∃ columns raw, f columns raw = .error e) ∧
      (a ≠ .ok none → d.finished = false) := by
  obtain ⟨as, hp⟩ := pulls_pull c s
  have hn : c.nextRaw s = c.pull s := by simp [nextRaw, hf]
  rw [nextBy_look, hn] at h
  obtain ⟨rfl, hdt⟩ := Prod.mk.inj h
  obtain ⟨hlater, has⟩ := hp.later
  have hfin := hp.finished_iff hf
  rw [hdt] at hlater has hfin
  refine ⟨hlater, fun e he => ?_, fun hne => ?_⟩
  · cases hx : (c.pull s).1 with
    | error e' =>
      rw [hx] at he
      cases he
      left
      rw [has]
      exact List.mem_of_getLast? (hp.of_error hx)
    | ok row? =>
      rw [hx] at he
      cases row? with
      | none => cases he
      | some raw =>
        right
        have hmap : (f (c.pull s).2.1.columns raw).map some = .error e := he
        cases hraw : f (c.pull s).2.1.columns raw with
        | ok v => rw [hraw] at hmap; cases hmap
        | error e' => rw [hraw] at hmap; cases hmap; exact ⟨_, _, hraw⟩
  · rw [Bool.eq_false_iff]
    intro hd
    exact hne (by rw [hfin.1 hd]; rfl)

/-- an open cursor fails as the session does, or as a row does that it has got -/
theorem Runs.failure {x y : Cursor × Session} {answers : List (Outcome (Option α))}
    (h : Runs f x answers y) (hf : x.1.finished = false) : x.2.Later y.2 ∧
      ∀ e, .error e ∈ answers →
        .error e ∈ x.2.answered y.2 ∨ ∃ columns raw, f columns raw = .error e := by
  induction h with
  | ended h | failed h =>
    obtain ⟨hlater, hfails, -⟩ := nextBy_unfinished hf h
    exact ⟨hlater, fun e he => hfails e (List.mem_singleton.1 he).symm⟩
  | item h _ ih =>
    obtain ⟨hlater, -, hopen⟩ := nextBy_unfinished hf h
    obtain ⟨hlater', hfails⟩ := ih (hopen nofun)
    refine ⟨hlater.trans hlater', fun e he => ?_⟩
    rcases List.mem_cons.1 he with he | he
    · cases he
    · refine (hfails e he).imp_left fun hmem => ?_
      rw [hlater.answered_append hlater']
      exact List.mem_append_right _ hmem

theorem Cut.mem_answers {answers : List (Outcome (Option α))} {items : List (Outcome α)}
    (h : Cut answers items) {e : Error} (he : .error e ∈ items) : .error e ∈ answers := by
  induction h with
  | ended => cases he
  | failed d =>
    cases List.mem_singleton.1 he
    exact List.mem_singleton.2 rfl
  | item a _ ih =>
    rcases List.mem_cons.1 he with he | he
    · cases he
    · exact List.mem_cons_of_mem _ (ih he)

/-! ## pages -/

/-- the answers are the front of what the cursor has left to tell -/
theorem Runs.told {x y : Cursor × Session} {answers : List (Outcome (Option α))}
    (h : Runs f x answers y) (hf : x.1.finished = false) :
    ∃ rest, x.1.told f x.2.queue = answers ++ rest := by
  have htold {c d : Cursor} {s t : Session} {a : Outcome (Option α)} (hf : c.finished = false)
      (h : c.nextBy f s = (a, d, t)) :
      c.told f s.queue = a :: if d.finished then [] else d.told f t.queue := by
    obtain ⟨as, hp⟩ := pulls_pull c s
    have hn : c.nextRaw s = c.pull s := by simp [nextRaw, hf]
    rw [nextBy_look, hn] at h
    obtain ⟨rfl, hdt⟩ := Prod.mk.inj h
    rw [hp.told hf, hdt]
  induction h with
  | ended h | failed h => exact ⟨_, htold hf h⟩
  | item h _ ih =>
    obtain ⟨-, -, hopen⟩ := nextBy_unfinished hf h
    have hd := hopen fun h => by cases h
    obtain ⟨rest, hrest⟩ := ih hd
    refine ⟨rest, ?_⟩
    rw [htold hf h, hd, if_neg Bool.false_ne_true, hrest]
    rfl

/-- pages that are known tell the rows at hand and their own -/
theorem told_pages (c : Cursor) (pages : List RawResult) :
    c.told f (pages.map .ok) =
      ((c.ahead pages).map fun x => (f x.1 x.2).map some) ++ [.ok none] := by
  induction pages generalizing c with
  | nil =>
    have hnone : announced c.hasMore [] = [] := by cases c.hasMore <;> rfl
    rw [List.map_nil, told, ahead, hnone]
    simp [seen, under]
  | cons page pages ih =>
    rw [List.map_cons, told, ahead]
    cases hm : c.hasMore with
    | false => simp [seen, announced, under]
    | true =>
      rw [if_pos rfl, ih, ahead, announced, under]
      simp [seen, absorb, hasMore]

end

/-! ## the three streams -/

section
variable {c : Cursor} {s : Session}

open RawResult (rowOf cellOf rowsOf)

theorem rowOf_ne_exhausted (columns : List ColumnSpec) (raw : RawRow) :
    rowOf columns raw ≠ .error .cursorExhausted := by
  unfold rowOf
  cases Row.decode columns raw <;> nofun

theorem cellOf_ne_exhausted (columns : List ColumnSpec) (raw : RawRow) :
    cellOf columns raw ≠ .error .cursorExhausted := by
  unfold cellOf
  cases Row.decodeFirst columns raw with
  | error d => nofun
  | ok v? => cases v? <;> nofun

theorem drain_agrees {α : Type} {f : List ColumnSpec → RawRow → Outcome α}
    (hf : c.finished = false) (hown : ∀ columns raw, f columns raw ≠ .error .cursorExhausted)
    {op : CursorOp} {wrap : Option α → CursorAnswer} (hop : op.reading? = some ⟨f, wrap⟩) :
    (∃ answers, Reads op wrap (c, s) answers (drain f c s).1 (drain f c s).2 ∧
      Yields (poll f) op (c, s) answers.length (drain f c s).1) ∧
    Unexhausted s (drain f c s).2 (drain f c s).1 := by
  obtain ⟨answers, d, hruns, hcut⟩ := runs_drain f c s
  obtain ⟨hanswered, hafter⟩ := hruns.calls hop
  refine ⟨⟨answers, ⟨hanswered, hcut, congrArg Prod.snd hafter⟩, hruns.yields hcut hop⟩,
    fun he => ?_⟩
  rcases (hruns.failure hf).2 _ (hcut.mem_answers he) with h | ⟨columns, raw, h⟩
  · exact h
  · exact absurd h (hown columns raw)

/-- pages whose rows decode are collected row by row -/
theorem rows_of_pages (hf : c.finished = false) {pages : List RawResult}
    (hq : s.queue = pages.map .ok) {rows : List Row}
    (h : List.Forall₂ (fun x row => Row.decode x.1 x.2 = .ok row) (c.ahead pages) rows) :
    (c.rows s).1 = rows.map .ok := by
  obtain ⟨answers, d, hruns, hcut⟩ := runs_drain rowOf c s
  obtain ⟨rest, htold⟩ := hruns.told hf
  suffices hall : c.told rowOf s.queue = rows.map (fun row => .ok (some row)) ++ [.ok none] from
    hcut.of_rows (htold.symm.trans hall)
  rw [hq, told_pages]
  congr 1
  clear htold
  generalize c.ahead pages = xs at h
  induction h with
  | nil => rfl
  | cons hx _ ih =>
    rw [List.map_cons, List.map_cons, ih, rowOf, hx]
    rfl

theorem exists_forall₂ {α β : Type} {r : α → β → Prop} {xs : List α} (h : ∀ x ∈ xs, ∃ y, r x y) :
    ∃ ys, List.Forall₂ r xs ys := by
  induction xs with
  | nil => exact ⟨[], .nil⟩
  | cons x xs ih =>
    obtain ⟨⟨y, hy⟩, hxs⟩ := List.forall_mem_cons.1 h
    obtain ⟨ys, hys⟩ := ih hxs
    exact ⟨y :: ys, .cons hy hys⟩

theorem map_snd_ahead (hm : c.hasMore) {pages : List RawResult}
    (h : ∀ page ∈ pages.dropLast, page.pagingState.isSome) :
    (c.ahead pages).map Prod.snd = c.buffer ++ rowsOf pages := by
  rw [ahead, hm, announced_of_linked h, List.map_append, map_snd_under, List.map_map]
  congr 1
  exact List.map_id _

theorem readItem_rowsAs (sh : Shape) :
    List.Forall₂ (ReadItem sh) (c.rows s).1 (c.rowsAs sh s).1 := by
  show List.Forall₂ _ _ ((c.rows s).1.map fun r => r.bind (Row.readAs sh))
  rw [List.forall₂_map_right_iff]
  refine List.forall₂_same.2 fun item _ => ?_
  cases item with
  | ok row => exact .row row
  | error e => exact .failed e

/-- host data fails as its row does, or because the row does not fit -/
theorem rowsAs_error {sh : Shape} {i : Nat} {e : Error}
    (h : (c.rowsAs sh s).1[i]? = some (.error e)) : (c.rows s).1[i]? = some (.error e) ∨
      ∃ row cause, (c.rows s).1[i]? = some (.ok row) ∧ e = .mapping (.unreadable cause) := by
  have hmap : ((c.rows s).1.map fun r => r.bind (Row.readAs sh))[i]? = some (.error e) := h
  rw [List.getElem?_map, Option.map_eq_some_iff] at hmap
  obtain ⟨item, hitem, he⟩ := hmap
  cases item with
  | error e' =>
    cases he
    exact .inl hitem
  | ok row =>
    have hread : ofReading (sh.read (.row row.columns)) = .error e := he
    cases hr : sh.read (.row row.columns) with
    | ok x => rw [hr] at hread; cases hread
    | error cause => rw [hr] at hread; cases hread; exact .inr ⟨row, cause, hitem, rfl⟩

/-- The streams of an open cursor.  Each yields what the reads of the cursor answer, up to the first
that finds no row: the end yields nothing, a failure is the last item.  Polls make the requests of
these reads and, once the stream is closed, no others.  A stream of host data has an item for each
item of the stream of rows, and what does not fit does not close it.  No stream reports an
exhausted cursor, unless the session does.  Pages whose rows decode are collected in their order. -/
theorem streams_agree (hf : c.finished = false) :
    (∃ answers, Reads .nextRow .row (c, s) answers (c.rows s).1 (c.rows s).2 ∧
      Yields (poll rowOf) .nextRow (c, s) answers.length (c.rows s).1 ∧
      ∀ sh, Yields (pollAs sh) .nextRow (c, s) answers.length (c.rowsAs sh s).1) ∧
    (∃ answers, Reads .nextScalar .scalar (c, s) answers (c.scalars s).1 (c.scalars s).2 ∧
      Yields (poll cellOf) .nextScalar (c, s) answers.length (c.scalars s).1) ∧
    (∀ sh, (c.rowsAs sh s).2 = (c.rows s).2 ∧
      List.Forall₂ (ReadItem sh) (c.rows s).1 (c.rowsAs sh s).1 ∧
      ∀ i e, (c.rowsAs sh s).1[i]? = some (.error e) → i + 1 = (c.rowsAs sh s).1.length ∨
        ∃ row cause, (c.rows s).1[i]? = some (.ok row) ∧ e = .mapping (.unreadable cause)) ∧
    (Unexhausted s (c.rows s).2 (c.rows s).1 ∧ Unexhausted s (c.scalars s).2 (c.scalars s).1 ∧
      ∀ sh, Unexhausted s (c.rowsAs sh s).2 (c.rowsAs sh s).1) ∧
    ∀ pages, s.queue = pages.map .ok →
      ((∀ x ∈ c.ahead pages, ∃ row, Row.decode x.1 x.2 = .ok row) → ∃ rows,
        (c.rows s).1 = rows.map .ok ∧
        List.Forall₂ (fun x row => Row.decode x.1 x.2 = .ok row) (c.ahead pages) rows) ∧
      (c.hasMore → (∀ page ∈ pages.dropLast, page.pagingState.isSome) →
        (c.ahead pages).map Prod.snd = c.buffer ++ rowsOf pages) := by
  have hnextRow : CursorOp.nextRow.reading? = some ⟨rowOf, .row⟩ := rfl
  have hnextScalar : CursorOp.nextScalar.reading? = some ⟨cellOf, .scalar⟩ := rfl
  obtain ⟨⟨answers, hreads, hyields⟩, hrows⟩ := drain_agrees (s := s) hf rowOf_ne_exhausted hnextRow
  obtain ⟨hcells, hscalars⟩ := drain_agrees (s := s) hf cellOf_ne_exhausted hnextScalar
  refine ⟨⟨answers, hreads, hyields, fun sh => hyields.as sh⟩, hcells,
    fun sh => ⟨rfl, readItem_rowsAs sh, fun i e he => ?_⟩, ⟨hrows, hscalars, fun sh he => ?_⟩,
    fun pages hq => ⟨fun hx => ?_, fun hm hlinked => map_snd_ahead hm hlinked⟩⟩
  · obtain hrow | ⟨row, cause, hrow, rfl⟩ := rowsAs_error he
    · left
      have hlast := hreads.cut.error_last hrow
      rw [hlast]
      exact (readItem_rowsAs sh).length_eq
    · exact .inr ⟨row, cause, hrow, rfl⟩
  · obtain ⟨i, hi⟩ := List.mem_iff_getElem?.1 he
    obtain hrow | ⟨_, _, -, hc⟩ := rowsAs_error hi
    · exact hrows (List.mem_of_getElem? hrow)
    · cases hc
  · obtain ⟨rows, hdecode⟩ := exists_forall₂ hx
    exact ⟨rows, rows_of_pages hf hq hdecode, hdecode⟩

/-- an empty page on the way, and then a failure with a page behind it -/
theorem streams_agree_patchy :
    let row (n : UInt8) : RawRow := [some [0, 0, 0, n]]
    let c : Cursor :=
      ⟨.direct "SELECT k FROM t" none, .empty, [⟨"k", .int⟩], [row 1], some [1], false⟩
    let pages : List RawResult :=
      [⟨[], none, some [2], none, []⟩, ⟨[], some [row 2, row 3], none, none, []⟩]
    let s := Session.replaying (pages.map .ok)
    let broken := Session.replaying [.error (.transport "gone"), .ok .void]
    c.finished = false ∧
    (∃ rows, (c.rows s).1 = rows.map .ok ∧
      List.Forall₂ (fun x row => Row.decode x.1 x.2 = .ok row) (c.ahead pages) rows) ∧
    (c.ahead pages).map Prod.snd = [row 1, row 2, row 3] ∧
    (∃ answers, Reads .nextScalar .scalar (c, broken) answers
      [.ok (.int 1), .error (.transport "gone")] (c.scalars broken).2) ∧
    ∀ sh, Yields (pollAs sh) .nextRow (c, broken) 2 (c.rowsAs sh broken).1 := by
  intro row c pages s broken
  obtain ⟨-, -, -, -, hpages⟩ := streams_agree (c := c) (s := s) rfl
  obtain ⟨hcollects, hall⟩ := hpages pages rfl
  obtain ⟨⟨answers, hrows, -, hdata⟩, ⟨values, hcells, -⟩, -⟩ :=
    streams_agree (c := c) (s := broken) rfl
  have hfirst : c.nextRaw broken = (.ok (some (row 1)), { c with buffer := [] }, broken) := by
    rw [nextRaw, pull]
    rfl
  have hsecond : ({ c with buffer := [] } : Cursor).nextRaw broken =
      (.error (.transport "gone"), { c with buffer := [] },
        (broken.execute { c with buffer := [] }.request).2) := by
    rw [nextRaw, pull]
    rfl
  refine ⟨rfl, hcollects ?_, hall rfl ?_, ⟨values, ?_⟩, ?_⟩
  · refine List.forall_mem_cons.2 ⟨⟨_, rfl⟩, List.forall_mem_cons.2 ⟨⟨_, rfl⟩, ?_⟩⟩
    exact List.forall_mem_singleton.2 ⟨_, rfl⟩
  · exact List.forall_mem_singleton.2 rfl
  · have hitems : (c.scalars broken).1 = [.ok (.int 1), .error (.transport "gone")] :=
      (drain_item hfirst rfl).trans (congrArg _ (drain_failed hsecond))
    exact hitems ▸ hcells
  · have hitems : (c.rows broken).1 = [.ok ⟨[("k", .int 1)]⟩, .error (.transport "gone")] :=
      (drain_item hfirst rfl).trans (congrArg _ (drain_failed hsecond))
    have hlength : answers.length = 2 := by
      cases hitems ▸ hrows.cut with
      | item _ more => cases more with | failed => rfl
    exact hlength ▸ hdata

end

end Cursor

end Cql
