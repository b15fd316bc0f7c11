import Cql.Proofs.Equality
import Cql.Proofs.Reader
import Cql.Value.Hash

/-!
# What a hasher is told of a value

Equality does not see the order of a set or a map, and a hasher is fed word after word; so nothing
of what a set or a map holds may be fed but its size.  `Alike` says of two values that they are the
same in everything else.  Equal values are alike (`alike_of_same`), and values are alike exactly
when they feed the same words: the words of a value tell where it ends, as its kind tells how many
words follow and a size how many parts (`Tells`), so that no word can be taken for another.

* `hashWords_of_alike`   like values feed the same words;
* `tells`                the words of a value and what follows them tell the value, up to `Alike`;
* `hash_respects_beq`    equality and hashing together, for every hasher.
-/

namespace Cql.Value

/-- the same but for what the sets and maps within them hold -/
inductive Alike : Value → Value → Prop
  | same (v : Value) : Alike v v
  | list {xs ys : List Value} (h : List.Forall₂ Alike xs ys) : Alike (list xs) (list ys)
  | tuple {xs ys : List Value} (h : List.Forall₂ Alike xs ys) : Alike (tuple xs) (tuple ys)
  | udt {name : String} {fs gs : List (String × Value)}
    (names : fs.map Prod.fst = gs.map Prod.fst)
    (values : List.Forall₂ Alike (fs.map Prod.snd) (gs.map Prod.snd)) :
    Alike (udt name fs) (udt name gs)
  | set {xs ys : List Value} (h : xs.length = ys.length) : Alike (set xs) (set ys)
  | map {es fs : List (Value × Value)} (h : es.length = fs.length) : Alike (map es) (map fs)

/-- a hasher after a value, whatever it does with a word -/
def feed {σ : Type} (write : σ → HashWord → σ) (s : σ) (v : Value) : σ := v.hashWords.foldl write s

/-! ## equal values are alike -/

section
variable {xs ys : List Value} {fs gs : List (String × Value)}

theorem alike_items (ih : ∀ x ∈ xs, ∀ {y}, Same x y → Alike x y) (h : List.Forall₂ Same xs ys) :
    List.Forall₂ Alike xs ys := by
  induction h with
  | nil => exact .nil
  | cons hxy _ ihs =>
    obtain ⟨hx, hxs⟩ := List.forall_mem_cons.1 ih
    exact .cons (hx hxy) (ihs hxs)

theorem alike_fields (ih : ∀ f ∈ fs, ∀ {y}, Same f.2 y → Alike f.2 y)
    (h : List.Forall₂ SameField fs gs) :
    fs.map Prod.fst = gs.map Prod.fst ∧
      List.Forall₂ Alike (fs.map Prod.snd) (gs.map Prod.snd) := by
  induction h with
  | nil => exact ⟨rfl, .nil⟩
  | cons hfg _ ihs =>
    obtain ⟨hf, hfs⟩ := List.forall_mem_cons.1 ih
    obtain ⟨hnames, hvalues⟩ := ihs hfs
    exact ⟨congrArg₂ List.cons hfg.1 hnames, .cons (hf hfg.2) hvalues⟩

theorem alike_of_same {a b : Value} (h : Same a b) : Alike a b := by
  induction a generalizing b with
  | list xs ih =>
    obtain ⟨ys, rfl, hxy⟩ := eqv_list.1 h
    exact .list (alike_items ih hxy)
  | tuple xs ih =>
    obtain ⟨ys, rfl, hxy⟩ := eqv_tuple.1 h
    exact .tuple (alike_items ih hxy)
  | udt name fs ih =>
    obtain ⟨gs, rfl, hfg⟩ := eqv_udt.1 h
    obtain ⟨hnames, hvalues⟩ := alike_fields ih hfg
    exact .udt hnames hvalues
  | set xs =>
    obtain ⟨ys, rfl, hxy⟩ := eqv_set.1 h
    exact .set hxy.1
  | map es =>
    obtain ⟨fs, rfl, hlength, -⟩ := eqv_map.1 h
    exact .map hlength
  | _ => exact (eqv_plain rfl).1 h ▸ .same _

/-! ## like values feed the same words -/

theorem hashWordsItems_of_alike (ih : ∀ x ∈ xs, ∀ {y}, Alike x y → hashWords x = hashWords y)
    (h : List.Forall₂ Alike xs ys) : hashWordsItems xs = hashWordsItems ys := by
  induction h with
  | nil => rfl
  | cons hxy _ ihs =>
    obtain ⟨hx, hxs⟩ := List.forall_mem_cons.1 ih
    rw [hashWordsItems_cons, hashWordsItems_cons, hx hxy, ihs hxs]

/-- the words of a record's fields are its names and the words of its values in turn -/
theorem hashWordsFields_of_alike
    (ih : ∀ f ∈ fs, ∀ {y}, Alike f.2 y → hashWords f.2 = hashWords y)
    (hn : fs.map Prod.fst = gs.map Prod.fst)
    (h : List.Forall₂ Alike (fs.map Prod.snd) (gs.map Prod.snd)) :
    hashWordsFields fs = hashWordsFields gs := by
  induction fs generalizing gs with
  | nil =>
    obtain rfl := List.map_eq_nil_iff.1 hn.symm
    rfl
  | cons f fs ihs =>
    cases gs with
    | nil => cases hn
    | cons g gs =>
      obtain ⟨hf, hfs⟩ := List.forall_mem_cons.1 ih
      obtain ⟨hname, hnames⟩ := List.cons.inj hn
      cases h with
      | cons hfg hrest =>
        obtain ⟨name, x⟩ := f
        obtain ⟨name', y⟩ := g
        obtain rfl : name = name' := hname
        rw [hashWordsFields_cons, hashWordsFields_cons, hf hfg, ihs hfs hnames hrest]

theorem hashWords_of_alike {a b : Value} (h : Alike a b) : hashWords a = hashWords b := by
  induction a generalizing b with
  | list xs ih =>
    cases h with
    | same => rfl
    | list h => rw [hashWords, hashWords, h.length_eq, hashWordsItems_of_alike ih h]
  | tuple xs ih =>
    cases h with
    | same => rfl
    | tuple h => rw [hashWords, hashWords, h.length_eq, hashWordsItems_of_alike ih h]
  | udt name fs ih =>
    cases h with
    | same => rfl
    | udt hn h =>
      have hlength := congrArg List.length hn
      rw [List.length_map, List.length_map] at hlength
      rw [hashWords, hashWords, hlength, hashWordsFields_of_alike ih hn h]
  | set xs =>
    cases h with
    | same => rfl
    | set h => rw [hashWords, hashWords, h]
  | map es =>
    cases h with
    | same => rfl
    | map h => rw [hashWords, hashWords, h]
  | _ => cases h; rfl

/-! ## words tell the value -/

/-- the words of `a` and what follows them tell `a`, up to `Alike` -/
def Tells (a : Value) : Prop :=
  ∀ {b : Value} {r s : List HashWord}, hashWords a ++ r = hashWords b ++ s → Alike a b ∧ r = s

theorem tells_items (ih : ∀ x ∈ xs, Tells x) {r s : List HashWord} (hl : xs.length = ys.length)
    (h : hashWordsItems xs ++ r = hashWordsItems ys ++ s) : List.Forall₂ Alike xs ys ∧ r = s := by
  induction xs generalizing ys with
  | nil =>
    obtain rfl := List.length_eq_zero_iff.1 hl.symm
    exact ⟨.nil, h⟩
  | cons x xs ihs =>
    cases ys with
    | nil => cases hl
    | cons y ys =>
      obtain ⟨hx, hxs⟩ := List.forall_mem_cons.1 ih
      rw [hashWordsItems_cons, hashWordsItems_cons, List.append_assoc, List.append_assoc] at h
      obtain ⟨hxy, hrest⟩ := hx h
      obtain ⟨hxys, hrs⟩ := ihs hxs (Nat.succ.inj hl) hrest
      exact ⟨.cons hxy hxys, hrs⟩

theorem tells_fields (ih : ∀ f ∈ fs, Tells f.2) {r s : List HashWord} (hl : fs.length = gs.length)
    (h : hashWordsFields fs ++ r = hashWordsFields gs ++ s) :
    (fs.map Prod.fst = gs.map Prod.fst ∧
      List.Forall₂ Alike (fs.map Prod.snd) (gs.map Prod.snd)) ∧ r = s := by
  induction fs generalizing gs with
  | nil =>
    obtain rfl := List.length_eq_zero_iff.1 hl.symm
    exact ⟨⟨rfl, .nil⟩, h⟩
  | cons f fs ihs =>
    cases gs with
    | nil => cases hl
    | cons g gs =>
      obtain ⟨hf, hfs⟩ := List.forall_mem_cons.1 ih
      rw [hashWordsFields_cons, hashWordsFields_cons] at h
      simp only [List.cons_append, List.append_assoc, List.cons.injEq, HashWord.chars.injEq] at h
      obtain ⟨hname, hwords⟩ := h
      obtain ⟨hfg, hrest⟩ := hf hwords
      obtain ⟨⟨hnames, hvalues⟩, hrs⟩ := ihs hfs (Nat.succ.inj hl) hrest
      exact ⟨⟨congrArg₂ List.cons hname hnames, .cons hfg hvalues⟩, hrs⟩

end

theorem uuid_bytes_inj {u v : Uuid} : u.bytes = v.bytes ↔ u = v := by
  refine ⟨fun h => ?_, congrArg _⟩
  have hu : Cell.readUuid "" u.bytes = .ok u := Cell.readUuid_iff.2 rfl
  have hv : Cell.readUuid "" u.bytes = .ok v := Cell.readUuid_iff.2 h
  exact Except.ok.inj (hu.symm.trans hv)

theorem inet_bytes_inj {a b : Inet} : a.bytes = b.bytes ↔ a = b := by
  refine ⟨fun h => ?_, congrArg _⟩
  have ha : Cell.readInet a.bytes = .ok a := Cell.readInet_iff.2 rfl
  have hb : Cell.readInet a.bytes = .ok b := Cell.readInet_iff.2 h
  exact Except.ok.inj (ha.symm.trans hb)

/-- without parts, the kind and one word more tell all -/
theorem tells_plain {a : Value} (h : a.plain = true) : Tells a := by
  intro b r s he
  cases a with
  | list | set | map | tuple | udt => cases h
  | bool p =>
    cases b with
    | bool q => cases p <;> cases q <;> simp_all [hashWords, Alike.same]
    | _ => simp [hashWords] at he
  | _ =>
    cases b <;> simp_all [hashWords, Int8.toInt_inj, Int16.toInt_inj, Int32.toInt_inj,
      Int64.toInt_inj, UInt32.toNat_inj, UInt64.toNat_inj, uuid_bytes_inj, inet_bytes_inj,
      ← Date.ext_iff, ← Time.ext_iff, ← Timestamp.ext_iff, Alike.same]

theorem tells (a : Value) : Tells a := by
  induction a with
  | list xs ih =>
    intro b r s he
    cases b with
    | list ys =>
      simp only [hashWords, List.cons_append, List.cons.injEq, HashWord.size.injEq, true_and] at he
      obtain ⟨h, hrs⟩ := tells_items ih he.1 he.2
      exact ⟨.list h, hrs⟩
    | _ => simp [hashWords] at he
  | tuple xs ih =>
    intro b r s he
    cases b with
    | tuple ys =>
      simp only [hashWords, List.cons_append, List.cons.injEq, HashWord.size.injEq, true_and] at he
      obtain ⟨h, hrs⟩ := tells_items ih he.1 he.2
      exact ⟨.tuple h, hrs⟩
    | _ => simp [hashWords] at he
  | udt name fs ih =>
    intro b r s he
    cases b with
    | udt name' gs =>
      simp only [hashWords, List.cons_append, List.cons.injEq, HashWord.chars.injEq,
        HashWord.size.injEq, true_and] at he
      obtain ⟨rfl, hlength, hwords⟩ := he
      obtain ⟨⟨hnames, hvalues⟩, hrs⟩ := tells_fields ih hlength hwords
      exact ⟨.udt hnames hvalues, hrs⟩
    | _ => simp [hashWords] at he
  | set xs =>
    intro b r s he
    cases b with
    | set ys =>
      simp only [hashWords, List.cons_append, List.nil_append, List.cons.injEq,
        HashWord.size.injEq, true_and] at he
      exact ⟨.set he.1, he.2⟩
    | _ => simp [hashWords] at he
  | map es =>
    intro b r s he
    cases b with
    | map fs =>
      simp only [hashWords, List.cons_append, List.nil_append, List.cons.injEq,
        HashWord.size.injEq, true_and] at he
      exact ⟨.map he.1, he.2⟩
    | _ => simp [hashWords] at he
  | _ => exact tells_plain rfl

theorem hashWords_eq_iff {a b : Value} : hashWords a = hashWords b ↔ Alike a b := by
  refine ⟨fun h => ?_, hashWords_of_alike⟩
  have hnil : hashWords a ++ [] = hashWords b ++ [] := by rw [h]
  exact (tells a hnil).1

/-- Equal values feed every hasher the same words, in whatever order their sets and maps were
filled; and two values feed the same words exactly when they differ in nothing but what their sets
and maps hold. -/
theorem hash_respects_beq (a b : Value) :
    ((a == b) = true → hashWords a = hashWords b ∧
      ∀ {σ : Type} (write : σ → HashWord → σ) (s : σ), feed write s a = feed write s b) ∧
    (hashWords a = hashWords b ↔ Alike a b) := by
  refine ⟨fun h => ?_, hashWords_eq_iff⟩
  have hwords := hashWords_of_alike (alike_of_same h)
  refine ⟨hwords, fun write s => ?_⟩
  rw [feed, feed, hwords]

/-- sets in lists, in tuples, as elements, as keys and in the fields of a record, each time in
another order, and a map with them -/
theorem hash_respects_beq_nested :
    let pair : Value := .set [.int 1, .float 0x7fc00000]
    let pair' : Value := .set [.float 0x7fc00000, .int 1]
    let a : Value := .list [.udt "u" [("m", .map [(pair, .null), (.text "k", .tuple [pair])])],
      .set [pair, .list []]]
    let b : Value := .list [.udt "u" [("m", .map [(.text "k", .tuple [pair']), (pair', .null)])],
      .set [.list [], pair']]
    (a == b) = true ∧ hashWords a = hashWords b ∧ Alike a b ∧
      ∀ {σ : Type} (write : σ → HashWord → σ) (s : σ), feed write s a = feed write s b := by
  intro pair pair' a b
  have heq : (a == b) = true := by decide
  obtain ⟨hfeed, halike⟩ := hash_respects_beq a b
  obtain ⟨hwords, hevery⟩ := hfeed heq
  exact ⟨heq, hwords, halike.1 hwords, hevery⟩

end Cql.Value
