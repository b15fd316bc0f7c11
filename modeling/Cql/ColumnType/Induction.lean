import Cql.ColumnType

/-!
# Induction on types of columns

`ColumnType.ind` knows of the fields of a tuple or a record, by membership, what is proved of the
type itself.  It is what `induction t with` uses.
-/

namespace Cql.ColumnType

/-- what holds of every type without parts, and of whatever holds of all its parts, holds of every
type -/
@[induction_eliminator]
theorem ind {motive : ColumnType → Prop}
    (ascii : motive ascii) (bool : motive bool) (blob : motive blob) (counter : motive counter)
    (date : motive date) (decimal : motive decimal) (double : motive double)
    (duration : motive duration) (float : motive float) (int : motive int)
    (bigInt : motive bigInt) (smallInt : motive smallInt) (tinyInt : motive tinyInt)
    (text : motive text) (time : motive time) (timestamp : motive timestamp)
    (uuid : motive uuid) (timeUuid : motive timeUuid) (inet : motive inet)
    (varint : motive varint)
    (list : ∀ element, motive element → motive (list element))
    (set : ∀ element, motive element → motive (set element))
    (map : ∀ key value, motive key → motive value → motive (map key value))
    (tuple : ∀ fields, (∀ t ∈ fields, motive t) → motive (tuple fields))
    (udt : ∀ keyspace name fields, (∀ f ∈ fields, motive f.2) → motive (udt keyspace name fields))
    (custom : ∀ className, motive (custom className)) (t : ColumnType) : motive t :=
  @ColumnType.rec motive (fun ts => ∀ t ∈ ts, motive t) (fun fs => ∀ f ∈ fs, motive f.2)
    (fun f => motive f.2)
    ascii bool blob counter date decimal double duration float int bigInt smallInt tinyInt text
    time timestamp uuid timeUuid inet varint list set map tuple udt custom
    (fun _ h => nomatch h) (fun _ _ ht hts => List.forall_mem_cons.2 ⟨ht, hts⟩)
    (fun _ h => nomatch h) (fun _ _ hf hfs => List.forall_mem_cons.2 ⟨hf, hfs⟩)
    (fun _ _ ht => ht) t

end Cql.ColumnType
