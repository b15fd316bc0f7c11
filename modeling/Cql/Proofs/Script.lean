import Cql.Proofs.Retrying
import Cql.Session.Script

/-!
# Scripts and what the session hears of them

A statement is prepared before the session is asked, and all that a call wants of the session it
asks in one place.  So it is settled by the preparation alone whether the session hears of a call,
and what it replies goes to that call and to no other.

* `Batch.Entry.prepares_iff`   the program prepares what the rules say, and nothing else;
* `Client.make_fate`, `Client.make_heard`   one call: what it does, and what it leaves behind;
* `Made.Fate.answer_of_failure`   whatever the call, a failure of the session is its answer;
* `Client.script_accounted`    any script of calls.
-/

namespace Cql

/-! ## preparing -/

namespace Batch.Entry
variable {w : Batch.Entry}

/-- what the program prepares -/
def prepared : Batch.Entry → Outcome (Statement × Parameters)
  | .query q => q.statement
  | .statement st data => Session.bound st data

theorem Yields.prepared {st : Statement} {vs : List Value} (h : w.Yields st vs) :
    w.prepared = (ofBinding (Parameters.ofValues vs)).map fun ps => (st, ps) := by
  cases h with
  | built h =>
    rw [Entry.prepared, Query.statement, h, bind_ok]
    cases ofBinding (Parameters.ofValues _) <;> rfl
  | bound h =>
    rw [Entry.prepared, Session.bound, Parameters.bind, h, bind_ok]

theorem prepares_prepared (w : Batch.Entry) : w.Prepares w.prepared := by
  have written {st : Statement} {vs : List Value} (h : w.Yields st vs) : w.Prepares w.prepared := by
    rw [h.prepared]
    cases hw : Parameters.ofValues vs with
    | ok ps => exact .ready h hw
    | error e => exact .unwritten h hw
  cases w with
  | query q =>
    cases hb : q.build with
    | ok b => exact written (.built hb)
    | error e =>
      have hq : q.statement = .error e := by rw [Query.statement, hb, bind_error]
      show Prepares _ q.statement
      rw [hq]
      exact .unbuilt hb
  | statement st data =>
    cases hb : Host.bindAll data with
    | ok vs => exact written (.bound hb)
    | error e =>
      have hs : Session.bound st data = .error (.binding e) := by
        rw [Session.bound, Parameters.bind, hb, bind_error]
        rfl
      show Prepares _ (Session.bound st data)
      rw [hs]
      exact .unbound hb

theorem prepares_iff {r : Outcome (Statement × Parameters)} : w.Prepares r ↔ r = w.prepared := by
  constructor
  · intro h
    cases h with
    | unbuilt h => rw [prepared, Query.statement, h, bind_error]
    | unbound h =>
      rw [prepared, Session.bound, Parameters.bind, h, bind_error]
      rfl
    | unwritten yields h => rw [yields.prepared, h]; rfl
    | ready yields h => rw [yields.prepared, h]; rfl
  · rintro rfl
    exact w.prepares_prepared

theorem existsUnique_prepares (w : Batch.Entry) : ∃! r, w.Prepares r :=
  ⟨w.prepared, w.prepares_prepared, fun _ => prepares_iff.1⟩

end Batch.Entry

/-! ## a read -/

namespace Cursor
variable {c : Cursor} {s : Session}

theorem asked_of_pulls {as : List (Outcome RawResult)} {x : CursorExchange (Option RawRow)}
    (h : Pulls c s as x) :
    ∀ q ∈ s.asked x.2.2, ∃ state, q = .paged c.statement c.parameters state := by
  induction h with
  | row | ended => simp
  | @failed c s => simpa using ⟨c.pagingState, rfl⟩
  | @page c s _ _ _ _ _ _ more ih =>
    rw [(s.later_after [c.request]).asked_append more.later.1, s.asked_after]
    exact List.forall_mem_append.2 ⟨List.forall_mem_singleton.2 ⟨c.pagingState, rfl⟩, ih⟩

/-- a cursor asks for pages of its own statement only -/
theorem asked_call (c : Cursor) (s : Session) (op : CursorOp) :
    ∀ q ∈ (call (c, s) op).asked, ∃ state, q = .paged c.statement c.parameters state := by
  have h := acts_call c s op
  generalize call (c, s) op = k at h
  cases h with
  | refused | stays | looks => simp [CursorCall.asked]
  | reads _ _ h => exact asked_of_pulls h
  | advances => simpa [CursorCall.asked] using ⟨c.pagingState, rfl⟩

theorem answer_of_failure {op : CursorOp} {k : CursorCall} (h : Acts c s op k) {e : Error}
    (he : .error e ∈ k.answered) : k.answer = .error e := by
  have hmem : e ∈ k.failures := List.mem_filterMap.2 ⟨_, he, rfl⟩
  rcases h.failures with hk | ⟨e', hk, ha, -⟩
  · rw [hk] at hmem
    cases hmem
  · rw [hk] at hmem
    rw [List.mem_singleton.1 hmem, ha]

end Cursor

/-! ## one call -/

namespace Made
variable {k : Made}

theorem replied_of_contacts {ks : List Contact} (h : k.contacts = ks) :
    k.replied = k.before.session.replies ks.length := by rw [replied, h]

theorem replied_of_one {c : Contact} (h : k.contacts = [c]) :
    k.replied = [k.before.session.reply] := by
  rw [replied_of_contacts h]
  exact k.before.session.replies_one

theorem replied_of_none (h : k.contacts = []) : k.replied = [] := replied_of_contacts h

theorem contacts_of_same (h : k.after = k.before) : k.contacts = [] := by
  rw [contacts, h, Session.contacts_self]

theorem collects_of_reply {c : Contact} (h : k.contacts = [c])
    (told : k.answer = k.before.session.reply.map fun raw => .result (.ofRaw raw))
    (cursors : k.after.cursors = k.before.cursors) : k.Collects := by
  have hr := replied_of_one h
  cases ha : k.before.session.reply with
  | ok raw =>
    rw [ha] at hr told
    exact .result hr told rfl rfl rfl rfl cursors
  | error e =>
    rw [ha] at hr told
    exact .failed hr told cursors

/-- whatever the call, a failure of the session is what it answers -/
theorem Fate.answer_of_failure (h : k.Fate) {e : Error} (he : .error e ∈ k.replied) :
    k.answer = .error e := by
  have silent {p : Prop} (hk : k.contacts = []) : p := by
    rw [replied_of_none hk] at he
    cases he
  have collected (hk : k.Collects) : k.answer = .error e := by
    cases hk with
    | result hr =>
      rw [hr] at he
      cases List.mem_singleton.1 he
    | failed hr told =>
      rw [hr] at he
      cases List.mem_singleton.1 he
      exact told
  cases h with
  | stopped _ _ _ same => exact silent (contacts_of_same same)
  | sent _ _ _ _ collects => exact collected collects
  | opened _ _ _ _ opens =>
    cases opens with
    | opened hr =>
      rw [hr] at he
      cases List.mem_singleton.1 he
    | failed hr told =>
      rw [hr] at he
      cases List.mem_singleton.1 he
      exact told
  | batched _ _ collects => exact collected collects
  | prepared _ hk => exact silent hk
  | @read i op c _ r _ _ made contacts _ _ _ told =>
    have hr : k.replied = r.answered := by
      rw [replied_of_contacts contacts, List.length_map, made]
      rfl
    subst made
    rw [hr] at he
    rw [told, Cursor.answer_of_failure (Cursor.acts_call _ _ _) he]
    rfl
  | missing _ _ _ same => exact silent (contacts_of_same same)

/-- the session hears of a statement exactly when all of its preparation succeeds -/
theorem Fate.contacts_iff (h : k.Fate) {w : Batch.Entry} (asks : k.call.asks? = some w) :
    k.contacts ≠ [] ↔ ∃ statement ps, w.Prepares (.ok (statement, ps)) := by
  have other {c : Call} {p : Prop} (call : k.call = c) (hc : c.asks? = none) : p := by
    rw [call, hc] at asks
    cases asks
  have heard {w' : Batch.Entry} {c : Contact} {statement : Statement} {ps : Parameters}
      (asks' : k.call.asks? = some w') (prepares : w'.Prepares (.ok (statement, ps)))
      (hk : k.contacts = [c]) : k.contacts ≠ [] ↔ ∃ st ps, w.Prepares (.ok (st, ps)) := by
    obtain rfl : w' = w := Option.some.inj (asks'.symm.trans asks)
    exact ⟨fun _ => ⟨_, _, prepares⟩, fun _ => by simp [hk]⟩
  cases h with
  | @stopped w' e asks' prepares _ same =>
    obtain rfl : w' = w := Option.some.inj (asks'.symm.trans asks)
    refine ⟨fun hk => absurd (contacts_of_same same) hk, fun ⟨st, ps, ready⟩ => ?_⟩
    -- one statement is not prepared in two ways
    cases (Batch.Entry.prepares_iff.1 prepares).trans (Batch.Entry.prepares_iff.1 ready).symm
  | sent asks' _ prepares contacts => exact heard asks' prepares contacts
  | opened asks' _ prepares contacts => exact heard asks' prepares contacts
  | batched call => exact other call rfl
  | prepared call => exact other call rfl
  | read call => exact other call rfl
  | missing call => exact other call rfl

end Made

namespace Client
variable (x : Client)

/-- a statement that is sent at once -/
theorem fate_collect {k : Made} {w : Batch.Entry} (asks : k.call.asks? = some w)
    (whole : k.call.paged = false) (before : k.before = x)
    (made : (k.answer, k.after) = x.collect (x.session.send w.prepared)) : k.Fate := by
  subst before
  have prepares := w.prepares_prepared
  cases hw : w.prepared with
  | error e =>
    rw [hw] at made prepares
    obtain ⟨told, same⟩ := Prod.mk.inj made
    exact .stopped asks prepares told same
  | ok p =>
    rw [hw, Session.send, Session.execute_eq] at made
    rw [hw] at prepares
    obtain ⟨told, same⟩ := Prod.mk.inj made
    have hk : k.contacts = [.request ⟨p.1, p.2, none⟩] := by
      rw [Made.contacts, same, Session.contacts_after]
      rfl
    exact .sent asks whole prepares hk (Made.collects_of_reply hk told (by rw [same]))

/-- a statement that is sent page by page -/
theorem fate_keep {k : Made} {w : Batch.Entry} (asks : k.call.asks? = some w)
    (paged : k.call.paged) (before : k.before = x)
    (made : (k.answer, k.after) = x.keep (x.session.openCursor w.prepared)) : k.Fate := by
  subst before
  have prepares := w.prepares_prepared
  cases hw : w.prepared with
  | error e =>
    rw [hw] at made prepares
    obtain ⟨told, same⟩ := Prod.mk.inj made
    exact .stopped asks prepares told same
  | ok p =>
    rw [hw, Session.openCursor, Cursor.start, Cursor.fetch_eq] at made
    rw [hw] at prepares
    have hk (h : k.after.session = k.before.session.after [.paged p.1 p.2 none]) :
        k.contacts = [.request (.paged p.1 p.2 none)] := by
      rw [Made.contacts, h, Session.contacts_after]
      rfl
    cases ha : k.before.session.reply with
    | ok page =>
      rw [ha] at made
      obtain ⟨told, same⟩ := Prod.mk.inj made
      have hk := hk (by rw [same]; rfl)
      have hr := ha ▸ Made.replied_of_one hk
      exact .opened asks paged prepares hk (.opened hr told (by rw [same]; rfl))
    | error e =>
      rw [ha] at made
      obtain ⟨told, same⟩ := Prod.mk.inj made
      have hk := hk (by rw [same]; rfl)
      have hr := ha ▸ Made.replied_of_one hk
      exact .opened asks paged prepares hk (.failed hr told (by rw [same]))

theorem make_read (i : Nat) (op : CursorOp) : (x.make (.read i op)).Fate := by
  cases hc : x.cursors[i]? with
  | none =>
    have hx : x.perform (.read i op) = (.ok .nothing, x) := by rw [perform, read, hc]
    refine .missing rfl hc ?_ ?_
    · rw [make, hx]
    · rw [make, hx]
  | some c =>
    let r := Cursor.call (c, x.session) op
    have hx : x.perform (.read i op) =
        (r.answer.map .told, ⟨r.after.2, x.cursors.set i r.after.1⟩) := by
      rw [perform, read, hc]
    have hacts := Cursor.acts_call c x.session op
    obtain ⟨rows, uses⟩ := hacts.uses
    have hk : (x.make (.read i op)).contacts = r.asked.map .request := by
      have hlater : r.after.2 = x.session.after r.asked := hacts.frugal.later
      rw [Made.contacts, make, hx]
      show x.session.contacts r.after.2 = _
      rw [hlater, Session.contacts_after]
    refine .read rfl hc rfl hk (Cursor.asked_call c x.session op) hacts.frugal uses ?_ ?_
    · rw [make, hx]
    · rw [make, hx]

/-- what one call does -/
theorem make_fate (c : Call) : (x.make c).Fate := by
  cases c with
  | execute q => exact x.fate_collect (w := .query q) rfl rfl rfl rfl
  | executePaged q => exact x.fate_keep (w := .query q) rfl rfl rfl rfl
  | query statement data => exact x.fate_collect (w := .statement statement data) rfl rfl rfl rfl
  | queryPaged statement data => exact x.fate_keep (w := .statement statement data) rfl rfl rfl rfl
  | runBatch b =>
    have hx : x.perform (.runBatch b) = x.collect (x.session.reply, x.session.heard [.batch b] []) := by
      rw [perform, Session.runBatch_eq]
    have hk : (x.make (.runBatch b)).contacts = [.batch b] := by
      rw [Made.contacts, make, hx]
      exact x.session.contacts_batch b
    refine .batched rfl hk (Made.collects_of_reply hk ?_ ?_)
    · rw [make, hx]
      rfl
    · rw [make, hx]
      rfl
  | prepare text =>
    refine .prepared rfl ?_ rfl rfl
    show x.session.contacts (x.session.prepare text).2 = []
    rw [Session.prepare_eq]
    exact x.session.contacts_prepared [text]
  | read i op => exact x.make_read i op

end Client

/-! ## what a call leaves behind -/

namespace Session
variable (s : Session)

theorem send_later (prepared : Outcome (Statement × Parameters)) : s.Later (s.send prepared).2 := by
  cases prepared with
  | ok p =>
    rw [send, execute_eq]
    exact s.later_after _
  | error e => exact s.later_self

theorem openCursor_later (prepared : Outcome (Statement × Parameters)) :
    s.Later (s.openCursor prepared).2 := by
  cases prepared with
  | ok p =>
    rw [Cursor.openCursor_snd]
    exact s.later_after _
  | error e => exact s.later_self

variable {s}

/-- nothing but requests happened, and all of them are told -/
theorem Later.heard {t : Session} (h : s.Later t) : t = s.heard (s.contacts t) [] := by
  rw [h, contacts_after, after_eq_heard]

end Session

namespace Client
variable (x : Client)

theorem keep_session (y : Outcome Cursor × Session) : (x.keep y).2.session = y.2 := by
  obtain ⟨_ | c, s⟩ := y <;> rfl

theorem read_later (i : Nat) (op : CursorOp) : x.session.Later (x.read i op).2.session := by
  rw [read]
  cases x.cursors[i]? with
  | some c => exact Cursor.call_later (c, x.session) op
  | none => exact x.session.later_self

/-- what is not in the contacts of a call, nor in its text, is as it was -/
theorem make_heard (c : Call) :
    (x.make c).after.session = x.session.heard (x.make c).contacts c.texts := by
  cases c with
  | execute q => exact (x.session.send_later q.statement).heard
  | executePaged q =>
    have h := x.session.openCursor_later q.statement
    rw [← x.keep_session] at h
    exact h.heard
  | query statement data => exact (x.session.send_later (Session.bound statement data)).heard
  | queryPaged statement data =>
    have h := x.session.openCursor_later (Session.bound statement data)
    rw [← x.keep_session] at h
    exact h.heard
  | runBatch b =>
    have hs : (x.make (.runBatch b)).after.session = x.session.heard [.batch b] [] :=
      congrArg Prod.snd (x.session.runBatch_eq b)
    rw [Made.contacts, hs]
    show _ = x.session.heard (x.session.contacts (x.session.heard [.batch b] [])) []
    rw [Session.contacts_batch]
  | prepare text =>
    have hs : (x.make (.prepare text)).after.session = x.session.heard [] [text] :=
      congrArg Prod.snd (x.session.prepare_eq text)
    rw [Made.contacts, hs]
    show _ = x.session.heard (x.session.contacts (x.session.heard [] [text])) [text]
    rw [Session.contacts_prepared]
  | read i op => exact (x.read_later i op).heard

/-! ## scripts -/

theorem map_call_script (calls : List Call) : (x.script calls).map Made.call = calls := by
  induction calls generalizing x with
  | nil => rfl
  | cons c cs ih => rw [script, List.map_cons, ih]; rfl

theorem script_fate (calls : List Call) : ∀ k ∈ x.script calls, k.Fate := by
  induction calls generalizing x with
  | nil => exact fun _ hk => nomatch hk
  | cons c cs ih => exact List.forall_mem_cons.2 ⟨x.make_fate c, ih _⟩

theorem afterScript_heard (calls : List Call) :
    (x.afterScript calls).session =
      x.session.heard ((x.script calls).flatMap Made.contacts) (calls.flatMap Call.texts) := by
  induction calls generalizing x with
  | nil => exact x.session.heard_nil.symm
  | cons c cs ih =>
    show ((x.make c).after.afterScript cs).session = _
    rw [ih, x.make_heard, Session.heard_heard]
    rfl

/-- the replies go to the contacts in their order -/
theorem script_replied (calls : List Call) :
    (x.script calls).flatMap Made.replied =
      x.session.replies ((x.script calls).flatMap Made.contacts).length := by
  induction calls generalizing x with
  | nil => rfl
  | cons c cs ih =>
    rw [script, List.flatMap_cons, List.flatMap_cons, ih, List.length_append,
      x.session.replies_heard _ c.texts, ← x.make_heard]
    rfl

/-- Whatever is called, in whatever order, and whichever cursors are read in between: a statement
that cannot be built, bound or written is answered with that failure and the session never hears of
it; one that can is sent once, as it was prepared; and the replies of the session go to the requests
and batches in their order, one each, and come back as they were. -/
theorem script_accounted (calls : List Call) :
    let made := x.script calls
    let contacts := made.flatMap Made.contacts
    made.map Made.call = calls ∧
    (∀ w : Batch.Entry, ∃! r, w.Prepares r) ∧
    (∀ k ∈ made, k.Fate ∧
      (∀ w, k.call.asks? = some w →
        (k.contacts ≠ [] ↔ ∃ statement ps, w.Prepares (.ok (statement, ps)))) ∧
      ∀ e, .error e ∈ k.replied → k.answer = .error e) ∧
    made.flatMap Made.replied = x.session.replies contacts.length ∧
    (x.afterScript calls).session = x.session.heard contacts (calls.flatMap Call.texts) := by
  intro made contacts
  refine ⟨x.map_call_script calls, Batch.Entry.existsUnique_prepares, fun k hk => ?_,
    x.script_replied calls, x.afterScript_heard calls⟩
  have hfate := x.script_fate calls k hk
  exact ⟨hfate, fun w asks => hfate.contacts_iff asks, fun e he => hfate.answer_of_failure he⟩

/-- a cursor, a text to prepare, an insert of nothing, a page that fails and is asked for again
behind a batch, a number that cannot be bound, and a second cursor when nothing is queued -/
theorem script_accounted_mixed :
    let page : RawResult := ⟨[⟨"k", .int⟩], some [[some [0, 0, 0, 1]]], some [1], none, []⟩
    let applied : RawResult := ⟨[], none, none, none, ["slow"]⟩
    let x : Client := ⟨.replaying [.ok page, .error (.transport "gone"), .ok applied, .ok page], []⟩
    let st : Statement := .direct "SELECT k FROM t" none
    let b : Batch := (Batch.empty .logged).push st .empty
    let calls : List Call := [.queryPaged st [], .prepare "SELECT 1",
      .execute (.insert (.ofTable "t")), .read 0 .advance, .runBatch b,
      .query st [.int ⟨.u64, 9223372036854775808, by decide⟩], .read 0 .advance, .read 1 .nextRow,
      .executePaged (.select (.ofTable "t"))]
    let made := x.script calls
    let contacts : List Contact := [.request (.paged st .empty none),
      .request (.paged st .empty (some [1])), .batch b, .request (.paged st .empty (some [1])),
      .request (.paged (.direct "SELECT * FROM t" none) .empty none)]
    (∀ k ∈ made, k.Fate) ∧ made.flatMap Made.contacts = contacts ∧
      made.flatMap Made.replied =
        [.ok page, .error (.transport "gone"), .ok applied, .ok page, .ok .void] ∧
      (x.afterScript calls).session = x.session.heard contacts ["SELECT 1"] := by
  intro page applied x st b calls made contacts
  have hcontacts : made.flatMap Made.contacts = contacts := by rfl
  obtain ⟨-, -, hmade, hreplied, hsession⟩ := x.script_accounted calls
  rw [hcontacts] at hreplied hsession
  exact ⟨fun k hk => (hmade k hk).1, hcontacts, hreplied, hsession⟩

end Client

end Cql
