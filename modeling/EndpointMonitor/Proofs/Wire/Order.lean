import EndpointMonitor.Proofs.Wire.Record
import EndpointMonitor.Wire.Variant

/-!
Objects whose members come in another order. What is decoded stays the same, whether a value is
read as it comes or kept until it is known what it is.
-/

namespace EndpointMonitor.Wire

open Json (Node)

variable {α β ρ : Type} {source : Source} {members members' : Members}

/-! ### Results -/

/-- Both are the same value, or neither is one. -/
def Agree (r r' : Result α) : Prop := ∀ value, r = .ok value ↔ r' = .ok value

theorem Result.bind_ok_iff {result : Result α} {f : α → Result β} {value : β} :
    result >>= f = .ok value ↔ ∃ a, result = .ok a ∧ f a = .ok value := by
  constructor
  · exact Result.bind_ok
  · rintro ⟨a, first, second⟩
    rw [first]
    exact second

namespace Agree

theorem refl (r : Result α) : Agree r r := fun _ => Iff.rfl

theorem symm {r r' : Result α} (h : Agree r r') : Agree r' r := fun value => (h value).symm

theorem bind {r r' : Result α} {f f' : α → Result β} (h : Agree r r')
    (later : ∀ a, r = .ok a → Agree (f a) (f' a)) : Agree (r >>= f) (r' >>= f') := by
  intro value
  constructor
  · intro ok
    obtain ⟨a, first, second⟩ := Result.bind_ok ok
    rw [(h a).1 first]
    exact (later a first value).1 second
  · intro ok
    obtain ⟨a, first, second⟩ := Result.bind_ok ok
    have before := (h a).2 first
    rw [before]
    exact (later a before value).2 second

theorem map {r r' : Result α} (h : Agree r r') (f : α → β) : Agree (f <$> r) (f <$> r') := by
  have bound : Agree (r >>= fun a => pure (f a)) (r' >>= fun a => pure (f a)) :=
    h.bind fun a _ => refl (pure (f a))
  simpa only [bind_pure_comp] using bound

end Agree

/-! ### Members -/

/-- No key comes twice. -/
def Distinct (members : Members) : Prop := (members.map Prod.fst).Nodup

namespace Distinct

theorem perm (h : Distinct members) (perm : members.Perm members') : Distinct members' :=
  (perm.map Prod.fst).nodup_iff.1 h

theorem filter (h : Distinct members) (p : Option String × Node → Bool) :
    Distinct (members.filter p) :=
  h.sublist (List.filter_sublist.map Prod.fst)

theorem head {m : Option String × Node} (h : Distinct (m :: members)) :
    ∀ n ∈ members, n.1 ≠ m.1 := by
  intro n among same
  have absent : m.1 ∉ members.map Prod.fst := (List.nodup_cons.1 h).1
  exact absent (same ▸ List.mem_map_of_mem among)

theorem tail {m : Option String × Node} (h : Distinct (m :: members)) : Distinct members :=
  (List.nodup_cons.1 h).2

theorem lookup_eq_some (h : Distinct members) {name : String} {node : Node} :
    lookup name members = some node ↔ (some name, node) ∈ members := by
  induction members with
  | nil => simp [lookup]
  | cons m members ih =>
    by_cases here : m.1 = some name
    · have first : lookup name (m :: members) = some m.2 := by simp [lookup, here]
      have only : (some name, node) ∉ members := fun among => h.head _ among here.symm
      rw [first, List.mem_cons, or_iff_left only, Prod.ext_iff, here]
      simp [eq_comm]
    · have later : lookup name (m :: members) = lookup name members := by simp [lookup, here]
      have other : (some name, node) ≠ m := fun same => here (same ▸ rfl)
      rw [later, ih h.tail, List.mem_cons, or_iff_right other]

/-- A name is looked up in any order. -/
theorem lookup_perm (h : Distinct members) (perm : members.Perm members') (name : String) :
    lookup name members = lookup name members' := by
  apply Option.ext
  intro node
  rw [h.lookup_eq_some, (h.perm perm).lookup_eq_some]
  exact perm.mem_iff

end Distinct

/-- The objects in a payload that have the same members are decoded alike. -/
def Unordered (decode : Decoder α) : Prop :=
  ∀ (room : Nat) (members members' : Members), members.Perm members' → Distinct members →
    Agree (decode (.payload room) (.object members true))
      (decode (.payload room) (.object members' true))

/-- A decoder enters an object before it looks at the members. -/
theorem unordered_of_enter {decode : Decoder α} {inside : Source → Members → Result α}
    (enters : ∀ room members, decode (.payload room) (.object members true) =
      (Source.payload room).enter >>= fun inner => inside inner members)
    (h : ∀ (room : Nat) (members members' : Members), members.Perm members' → Distinct members →
      Agree (inside (.payload room) members) (inside (.payload room) members')) :
    Unordered decode := by
  intro room members members' perm distinct
  rw [enters, enters]
  refine (Agree.refl _).bind fun inner entered => ?_
  cases room with
  | zero => cases entered
  | succ room =>
    obtain rfl : Source.payload room = inner := Except.ok.inj entered
    exact h room members members' perm distinct

/-! ### Records -/

namespace Record

variable {record : Record ρ α} {closed : Bool}

/-- The members can be read, and those of the record are decoded. -/
theorem scan_ok (distinct : Distinct members) {seen : List String} :
    record.scan source seen members = .ok () ↔
      ∀ m ∈ members, ∃ key, m.1 = some key ∧
        (key ∈ record.names → key ∉ seen ∧ record.probe source key m.2 = .ok ()) := by
  induction members generalizing seen with
  | nil => simp [scan, pure, Except.pure]
  | cons m members ih =>
    obtain ⟨_ | key, node⟩ := m
    · simp [scan, throw, throwThe, MonadExceptOf.throw]
    · have others := distinct.head
      have unseen : (∀ m ∈ members, ∃ k, m.1 = some k ∧
          (k ∈ record.names → k ∉ key :: seen ∧ record.probe source k m.2 = .ok ())) ↔
          ∀ m ∈ members, ∃ k, m.1 = some k ∧
            (k ∈ record.names → k ∉ seen ∧ record.probe source k m.2 = .ok ()) := by
        refine forall₂_congr fun m among => exists_congr fun k => and_congr_right fun named => ?_
        have apart : k ≠ key := fun same => others m among (same ▸ named)
        simp [apart]
      rw [List.forall_mem_cons, scan]
      split
      · next known =>
        split
        · next again => simp [known, again, throw, throwThe, MonadExceptOf.throw]
        · next fresh =>
          cases probed : record.probe source key node with
          | error e => simp [known, probed, bind, Except.bind]
          | ok _ =>
            have rest : record.scan source (key :: seen) members = .ok () ↔ _ :=
              (ih distinct.tail).trans unseen
            simpa [known, fresh, probed, bind, Except.bind] using rest
      · next unknown =>
        rw [ih distinct.tail]
        simp [unknown]

theorem decodeMembers_perm (perm : members.Perm members') (distinct : Distinct members) :
    Agree (record.decodeMembers source members closed)
      (record.decodeMembers source members' closed) := by
  have found : (lookup · members) = (lookup · members') := funext (distinct.lookup_perm perm)
  have scanned : Agree (record.scan source [] members) (record.scan source [] members') := by
    intro _
    rw [scan_ok distinct, scan_ok (distinct.perm perm)]
    exact ⟨fun all m among => all m (perm.mem_iff.2 among),
      fun all m among => all m (perm.mem_iff.1 among)⟩
  unfold decodeMembers
  rw [found]
  exact scanned.bind fun _ _ => Agree.refl _

theorem unordered (record : Record ρ α) (expected : String) :
    Unordered (record.decode expected) :=
  unordered_of_enter (fun _ _ => rfl) fun _ _ _ perm distinct => decodeMembers_perm perm distinct

end Record

/-! ### Values beside their names -/

theorem Variants.exists_of_find {variants : Variants α} {name : String} {value : α}
    (h : variants.find name = .ok value) : ∃ v ∈ variants, v.2 = value := by
  unfold find at h
  split at h
  · next there =>
    obtain ⟨before, after, rfl, -⟩ := List.lookup_eq_some_iff.1 there
    exact ⟨(name, _), by simp, Except.ok.inj h⟩
  · cases h

theorem Variants.exists_of_select {variants : Variants α} {node : Node} {value : α}
    {content : Option (Source × Node)} (h : variants.select source node = .ok (value, content)) :
    ∃ v ∈ variants, v.2 = value := by
  unfold select at h
  split at h
  · obtain ⟨found, there, same⟩ := Result.bind_ok h
    cases same
    exact exists_of_find there
  · obtain ⟨found, there, same⟩ := Result.bind_ok h
    cases same
    exact exists_of_find there
  · cases h
  · cases h
  · obtain ⟨inner, -, rest⟩ := Result.bind_ok h
    obtain ⟨found, there, same⟩ := Result.bind_ok rest
    cases same
    exact exists_of_find there
  · obtain ⟨inner, -, rest⟩ := Result.bind_ok h
    cases rest
  · cases h

theorem Variants.exists_of_decodePlain {variants : Variants α} {node : Node} {value : α}
    (h : variants.decodePlain source node = .ok value) : ∃ v ∈ variants, v.2 = value := by
  unfold decodePlain at h
  obtain ⟨⟨found, content⟩, selected, rest⟩ := Result.bind_ok h
  have among := exists_of_select selected
  cases content with
  | none =>
    cases rest
    exact among
  | some inner =>
    obtain ⟨_, -, rest⟩ := Result.bind_ok rest
    obtain ⟨_, -, same⟩ := Result.bind_ok rest
    cases same
    exact among

/-- What a decoder makes of a payload is what it makes of a value that was buffered before. -/
def Buffers (decode : Decoder α) : Prop :=
  ∀ room node, Agree (decode (.payload room) node)
    (buffer (.payload room) node >>= fun _ => decode .buffered node)

namespace Adjacent

variable {e : Adjacent α}

/-- The members that are looked at. -/
def relevant (e : Adjacent α) (m : Option String × Node) : Bool :=
  m.1 = some e.tag || m.1 = some e.content

def Readable (members : Members) : Prop := ∀ m ∈ members, m.1 ≠ none

theorem next_filter (readable : Readable members) :
    e.next true (members.filter e.relevant) =
      (fun found => found.map fun f => (f.1, f.2.1, f.2.2.filter e.relevant)) <$>
        e.next true members := by
  induction members with
  | nil => rfl
  | cons m members ih =>
    obtain ⟨_ | key, node⟩ := m
    · exact absurd rfl (readable (none, node) List.mem_cons_self)
    · have others := ih fun n among => readable n (List.mem_cons_of_mem _ among)
      by_cases tag : key = e.tag
      · subst tag
        simp [relevant, next]
      · by_cases content : key = e.content
        · subst content
          simp [relevant, next, tag]
        · simp [relevant, next, tag, content, others]

/-- Nothing that was passed over had no key. -/
theorem readable_of_next {found : Option (Bool × Node × Members)}
    (h : e.next true members = .ok found) :
    Readable members ↔ ∀ f, found = some f → Readable f.2.2 := by
  induction members with
  | nil =>
    obtain rfl : none = found := Except.ok.inj h
    simp [Readable]
  | cons m members ih =>
    obtain ⟨_ | key, node⟩ := m
    · cases h
    · have first : Readable ((some key, node) :: members) ↔ Readable members := by
        simp [Readable]
      rw [next] at h
      split at h
      · obtain rfl : some (true, node, members) = found := Except.ok.inj h
        simp [first]
      · split at h
        · obtain rfl : some (false, node, members) = found := Except.ok.inj h
          simp [first]
        · rw [first, ih h]

theorem finish_filter (readable : Readable members) :
    e.finish true (members.filter e.relevant) = e.finish true members := by
  rw [finish, finish, next_filter readable]
  cases e.next true members with
  | error _ => rfl
  | ok found => cases found <;> rfl

theorem readable_of_finish (h : e.finish true members = .ok ()) : Readable members := by
  rw [finish] at h
  obtain ⟨found, seen, rest⟩ := Result.bind_ok h
  cases found with
  | some f => cases rest
  | none => simpa using readable_of_next seen

theorem decodeTagged_filter {tag : Node} (readable : Readable members) :
    e.decodeTagged source true tag (members.filter e.relevant) =
      e.decodeTagged source true tag members := by
  rw [decodeTagged, decodeTagged, next_filter readable]
  refine congrArg _ (funext fun variant => ?_)
  cases seen : e.next true members with
  | error _ => rfl
  | ok found =>
    cases found with
    | none => rfl
    | some f =>
      obtain ⟨isTag, content, rest⟩ := f
      cases isTag with
      | true => rfl
      | false =>
        have others : Readable rest := (readable_of_next seen).1 readable _ rfl
        show (do
          let value ← variant.decode source content
          e.finish true (rest.filter e.relevant)
          pure value) = _
        rw [finish_filter others]
        rfl

theorem decodeBuffered_filter {content : Node} (readable : Readable members) :
    e.decodeBuffered source true content (members.filter e.relevant) =
      e.decodeBuffered source true content members := by
  rw [decodeBuffered, decodeBuffered, next_filter readable]
  refine congrArg _ (funext fun _ => ?_)
  cases seen : e.next true members with
  | error _ => rfl
  | ok found =>
    cases found with
    | none => rfl
    | some f =>
      obtain ⟨isTag, tag, rest⟩ := f
      cases isTag with
      | false => rfl
      | true =>
        have others : Readable rest := (readable_of_next seen).1 readable _ rfl
        show (do
          let variant ← e.variants.decodePlain source tag
          let value ← variant.decode .buffered content
          e.finish true (rest.filter e.relevant)
          pure value) = _
        rw [finish_filter others]
        rfl

/-- Only tag and content matter. -/
theorem decodeMembers_filter (readable : Readable members) :
    e.decodeMembers source (members.filter e.relevant) true =
      e.decodeMembers source members true := by
  rw [decodeMembers, decodeMembers, next_filter readable]
  cases seen : e.next true members with
  | error _ => rfl
  | ok found =>
    cases found with
    | none => rfl
    | some f =>
      obtain ⟨isTag, node, rest⟩ := f
      have others : Readable rest := (readable_of_next seen).1 readable _ rfl
      cases isTag with
      | true => exact decodeTagged_filter others
      | false => exact decodeBuffered_filter others

theorem readable_of_decodeTagged {tag : Node} {value : α}
    (h : e.decodeTagged source true tag members = .ok value) : Readable members := by
  rw [decodeTagged] at h
  obtain ⟨variant, -, h⟩ := Result.bind_ok h
  obtain ⟨found, seen, h⟩ := Result.bind_ok h
  rcases found with _ | ⟨_ | _, content, rest⟩
  · simpa using readable_of_next seen
  · obtain ⟨_, -, h⟩ := Result.bind_ok h
    obtain ⟨⟨⟩, ends, -⟩ := Result.bind_ok h
    have others : Readable rest := readable_of_finish ends
    rw [readable_of_next seen]
    rintro _ ⟨⟩
    exact others
  · cases h

theorem readable_of_decodeBuffered {content : Node} {value : α}
    (h : e.decodeBuffered source true content members = .ok value) : Readable members := by
  rw [decodeBuffered] at h
  obtain ⟨_, -, h⟩ := Result.bind_ok h
  obtain ⟨found, seen, h⟩ := Result.bind_ok h
  rcases found with _ | ⟨_ | _, tag, rest⟩
  · cases h
  · cases h
  · obtain ⟨_, -, h⟩ := Result.bind_ok h
    obtain ⟨_, -, h⟩ := Result.bind_ok h
    obtain ⟨⟨⟩, ends, -⟩ := Result.bind_ok h
    have others : Readable rest := readable_of_finish ends
    rw [readable_of_next seen]
    rintro _ ⟨⟩
    exact others

/-- All members of an object that is decoded have keys. -/
theorem readable_of_decodeMembers {value : α}
    (h : e.decodeMembers source members true = .ok value) : Readable members := by
  rw [decodeMembers] at h
  obtain ⟨found, seen, h⟩ := Result.bind_ok h
  rcases found with _ | ⟨_ | _, node, rest⟩
  · cases h
  · rw [readable_of_next seen]
    rintro _ ⟨⟩
    exact readable_of_decodeBuffered h
  · rw [readable_of_next seen]
    rintro _ ⟨⟩
    exact readable_of_decodeTagged h

/-- The tag in front of the content and behind it: here the two ways to read the content meet. -/
theorem decodeMembers_swap {room : Nat} (buffers : ∀ v ∈ e.variants, Buffers v.2.decode)
    (apart : e.content ≠ e.tag) (tag content : Node) :
    Agree
      (e.decodeMembers (.payload room) [(some e.tag, tag), (some e.content, content)] true)
      (e.decodeMembers (.payload room) [(some e.content, content), (some e.tag, tag)] true) := by
  have tagged :
      e.decodeMembers (.payload room) [(some e.tag, tag), (some e.content, content)] true = (do
        let variant ← e.variants.decodePlain (.payload room) tag
        variant.decode (.payload room) content) := by
    simp [decodeMembers, next, apart, decodeTagged, finish]
  have buffered :
      e.decodeMembers (.payload room) [(some e.content, content), (some e.tag, tag)] true = (do
        buffer (.payload room) content
        let variant ← e.variants.decodePlain (.payload room) tag
        variant.decode .buffered content) := by
    simp [decodeMembers, next, apart, decodeBuffered, finish]
  intro value
  rw [tagged, buffered]
  simp only [Result.bind_ok_iff]
  constructor
  · rintro ⟨variant, named, read⟩
    obtain ⟨v, among, rfl⟩ := Variants.exists_of_decodePlain named
    obtain ⟨⟨⟩, whole, read⟩ := Result.bind_ok ((buffers v among room content value).1 read)
    exact ⟨(), whole, v.2, named, read⟩
  · rintro ⟨⟨⟩, whole, variant, named, read⟩
    obtain ⟨v, among, rfl⟩ := Variants.exists_of_decodePlain named
    refine ⟨v.2, named, (buffers v among room content value).2 ?_⟩
    exact Result.bind_ok_iff.2 ⟨(), whole, read⟩

theorem eq_or_swap_pair {a b : Option String × Node} (perm : [a, b].Perm members') :
    members' = [a, b] ∨ members' = [b, a] := by
  obtain ⟨x, y, rfl⟩ : ∃ x y, members' = [x, y] := by
    have length := perm.length_eq
    rcases members' with _ | ⟨x, _ | ⟨y, _ | ⟨z, rest⟩⟩⟩ <;> simp at length
    exact ⟨x, y, rfl⟩
  have among : x = a ∨ x = b := by simpa using perm.mem_iff.2 (List.mem_cons_self : x ∈ [x, y])
  rcases among with rfl | rfl
  · obtain rfl := List.singleton_perm_singleton.1 perm.cons_inv
    exact .inl rfl
  · have swapped : [x, a].Perm [x, y] := (List.Perm.swap a x []).trans perm
    obtain rfl := List.singleton_perm_singleton.1 swapped.cons_inv
    exact .inr rfl

/-- Of tag and content alone there are two orders. -/
theorem eq_or_swap (perm : members.Perm members') (distinct : Distinct members)
    (all : ∀ m ∈ members, e.relevant m = true) :
    members' = members ∨ ∃ tag content,
      members = [(some e.tag, tag), (some e.content, content)] ∧
          members' = [(some e.content, content), (some e.tag, tag)] ∨
        members = [(some e.content, content), (some e.tag, tag)] ∧
          members' = [(some e.tag, tag), (some e.content, content)] := by
  simp only [relevant, Bool.or_eq_true, decide_eq_true_eq] at all
  rcases members with _ | ⟨a, _ | ⟨b, _ | ⟨c, rest⟩⟩⟩
  · exact .inl (List.nil_perm.1 perm)
  · exact .inl (List.singleton_perm.1 perm).symm
  · have ab : b.1 ≠ a.1 := distinct.head b (by simp)
    rcases eq_or_swap_pair perm with same | swapped
    · exact .inl same
    · right
      obtain ⟨ka, na⟩ := a
      obtain ⟨kb, nb⟩ := b
      rcases all (ka, na) (by simp) with ha | ha <;> rcases all (kb, nb) (by simp) with hb | hb
      · exact absurd (hb.trans ha.symm) ab
      · exact ⟨na, nb, .inl ⟨by rw [← ha, ← hb], by rw [swapped, ← ha, ← hb]⟩⟩
      · exact ⟨nb, na, .inr ⟨by rw [← ha, ← hb], by rw [swapped, ← ha, ← hb]⟩⟩
      · exact absurd (hb.trans ha.symm) ab
  · have ab : b.1 ≠ a.1 := distinct.head b (by simp)
    have ac : c.1 ≠ a.1 := distinct.head c (by simp)
    have bc : c.1 ≠ b.1 := distinct.tail.head c (by simp)
    rcases all a (by simp) with ha | ha <;> rcases all b (by simp) with hb | hb <;>
      rcases all c (by simp) with hc | hc <;> simp_all

theorem relevant_perm {room : Nat} (buffers : ∀ v ∈ e.variants, Buffers v.2.decode)
    (apart : e.content ≠ e.tag) (perm : members.Perm members') (distinct : Distinct members) :
    Agree (e.decodeMembers (.payload room) (members.filter e.relevant) true)
      (e.decodeMembers (.payload room) (members'.filter e.relevant) true) := by
  have all : ∀ m ∈ members.filter e.relevant, e.relevant m = true :=
    fun m among => (List.mem_filter.1 among).2
  rcases eq_or_swap (perm.filter e.relevant) (distinct.filter e.relevant) all with
    same | ⟨tag, content, ⟨first, second⟩ | ⟨first, second⟩⟩
  · rw [same]
    exact Agree.refl _
  · rw [first, second]
    exact decodeMembers_swap buffers apart tag content
  · rw [first, second]
    exact (decodeMembers_swap buffers apart tag content).symm

theorem decodeMembers_of_perm {room : Nat} (buffers : ∀ v ∈ e.variants, Buffers v.2.decode)
    (apart : e.content ≠ e.tag) (perm : members.Perm members') (distinct : Distinct members)
    {value : α} (read : e.decodeMembers (.payload room) members true = .ok value) :
    e.decodeMembers (.payload room) members' true = .ok value := by
  -- An object with an unreadable key is not decoded in any order, so the rest may be left out.
  have readable := readable_of_decodeMembers read
  have readable' : Readable members' := fun m among => readable m (perm.mem_iff.2 among)
  rw [← decodeMembers_filter readable] at read
  rw [← decodeMembers_filter readable']
  exact (relevant_perm buffers apart perm distinct value).1 read

theorem decodeMembers_perm {room : Nat} (buffers : ∀ v ∈ e.variants, Buffers v.2.decode)
    (apart : e.content ≠ e.tag) (perm : members.Perm members') (distinct : Distinct members) :
    Agree (e.decodeMembers (.payload room) members true)
      (e.decodeMembers (.payload room) members' true) :=
  fun _ => ⟨decodeMembers_of_perm buffers apart perm distinct,
    decodeMembers_of_perm buffers apart perm.symm (distinct.perm perm)⟩

theorem unordered (buffers : ∀ v ∈ e.variants, Buffers v.2.decode) (apart : e.content ≠ e.tag) :
    Unordered e.decode := by
  refine unordered_of_enter (fun _ _ => rfl) fun room _ _ perm distinct => ?_
  exact decodeMembers_perm buffers apart perm distinct

end Adjacent

/-! ### Names among the fields -/

/-- The fields are found in any order. -/
def Fields.Unordered (fields : Fields α) : Prop :=
  ∀ members members' : Members, members.Perm members' → Distinct members →
    Agree (fields.members members) (fields.members members')

theorem Fields.unordered_none (value : α) : (Fields.none value).Unordered :=
  fun _ _ _ _ => Agree.refl _

theorem Fields.unordered_ofRecord (expected : String) (record : Record ρ ρ) (build : ρ → α) :
    (Fields.ofRecord expected record build).Unordered := by
  intro members members' perm distinct
  exact (Record.decodeMembers_perm perm distinct).map build

namespace Internal

variable {e : Internal α} {out : Fields α × Members}

/-- A member that is not the tag is read in full and kept. -/
theorem collect_other {found : Option (Fields α)} {key : String} {node : Node}
    (other : key ≠ e.tag) :
    e.collect source true found ((some key, node) :: members) = .ok out ↔
      buffer source node = .ok () ∧
        ∃ rest, e.collect source true found members = .ok (out.1, rest) ∧
          out.2 = (some key, node) :: rest := by
  rw [collect, if_neg other]
  constructor
  · intro h
    obtain ⟨⟨⟩, read, h⟩ := Result.bind_ok h
    obtain ⟨inner, later, h⟩ := Result.bind_ok h
    cases h
    exact ⟨read, inner.2, later, rfl⟩
  · rintro ⟨read, rest, later, kept⟩
    have same : out = (out.1, (some key, node) :: rest) := Prod.ext rfl kept
    rw [same]
    exact Result.bind_ok_iff.2 ⟨(), read, Result.bind_ok_iff.2 ⟨_, later, rfl⟩⟩

/-- After the tag all members are read in full. -/
theorem collect_some {variant : Fields α} :
    e.collect source true (some variant) members = .ok out ↔
      (∀ m ∈ members, ∃ key, m.1 = some key ∧ key ≠ e.tag ∧ buffer source m.2 = .ok ()) ∧
        out = (variant, members) := by
  induction members generalizing out with
  | nil => simp [collect, pure, Except.pure, eq_comm]
  | cons m members ih =>
    obtain ⟨_ | key, node⟩ := m
    · simp [collect, throw, throwThe, MonadExceptOf.throw]
    · by_cases tag : key = e.tag
      · simp [collect, tag, throw, throwThe, MonadExceptOf.throw]
      · rw [collect_other tag, List.forall_mem_cons]
        constructor
        · rintro ⟨read, rest, later, kept⟩
          obtain ⟨others, same⟩ := ih.1 later
          obtain ⟨first, rfl⟩ := Prod.mk.inj same
          exact ⟨⟨⟨key, rfl, tag, read⟩, others⟩, Prod.ext first kept⟩
        · rintro ⟨⟨⟨_, ⟨⟩, -, read⟩, others⟩, rfl⟩
          exact ⟨read, members, ih.2 ⟨others, rfl⟩, rfl⟩

/-- The tag says what the other members are read for. -/
theorem collect_tag {node : Node} :
    e.collect source true none ((some e.tag, node) :: members) = .ok out ↔
      e.decodeTag node = .ok out.1 ∧ out.2 = members ∧
        ∀ m ∈ members, ∃ key, m.1 = some key ∧ key ≠ e.tag ∧ buffer source m.2 = .ok () := by
  rw [collect, if_pos rfl]
  simp only [Option.isSome_none, Bool.false_eq_true, if_false]
  constructor
  · intro h
    obtain ⟨variant, named, later⟩ := Result.bind_ok h
    obtain ⟨whole, rfl⟩ := collect_some.1 later
    exact ⟨named, rfl, whole⟩
  · rintro ⟨named, kept, whole⟩
    exact Result.bind_ok_iff.2 ⟨out.1, named, collect_some.2 ⟨whole, Prod.ext rfl kept⟩⟩

/-- The members are the tag and others that are read in full. -/
theorem collect_none (distinct : Distinct members) :
    e.collect source true none members = .ok out ↔
      (∀ m ∈ members, ∃ key, m.1 = some key ∧ (key ≠ e.tag → buffer source m.2 = .ok ())) ∧
        (∃ node, (some e.tag, node) ∈ members ∧ e.decodeTag node = .ok out.1) ∧
        out.2 = members.filter (·.1 ≠ some e.tag) := by
  induction members generalizing out with
  | nil => simp [collect, throw, throwThe, MonadExceptOf.throw]
  | cons m members ih =>
    obtain ⟨_ | key, node⟩ := m
    · simp [collect, throw, throwThe, MonadExceptOf.throw]
    · by_cases tag : key = e.tag
      · subst tag
        have others : ∀ m ∈ members, m.1 ≠ some e.tag := distinct.head
        have kept : ((some e.tag, node) :: members).filter (·.1 ≠ some e.tag) = members := by
          simpa using fun key node among => others (key, node) among
        have only : (∃ tag, (some e.tag, tag) ∈ (some e.tag, node) :: members ∧
            e.decodeTag tag = .ok out.1) ↔ e.decodeTag node = .ok out.1 := by
          have absent : ∀ tag, (some e.tag, tag) ∉ members := fun tag among => others _ among rfl
          simp [absent]
        have whole : (∀ m ∈ members, ∃ key, m.1 = some key ∧ key ≠ e.tag ∧
            buffer source m.2 = .ok ()) ↔
            ∀ m ∈ members, ∃ key, m.1 = some key ∧ (key ≠ e.tag → buffer source m.2 = .ok ()) := by
          refine forall₂_congr fun m among => exists_congr fun key =>
            and_congr_right fun named => ?_
          have apart : key ≠ e.tag := fun tag => others m among (tag ▸ named)
          simp [apart]
        rw [collect_tag, List.forall_mem_cons, only, kept, whole]
        constructor
        · rintro ⟨named, last, read⟩
          exact ⟨⟨⟨e.tag, rfl, fun no => absurd rfl no⟩, read⟩, named, last⟩
        · rintro ⟨⟨-, read⟩, named, last⟩
          exact ⟨named, last, read⟩
      · have kept : ((some key, node) :: members).filter (·.1 ≠ some e.tag) =
            (some key, node) :: members.filter (·.1 ≠ some e.tag) := by
          simp [tag]
        have elsewhere : ∀ node', (some e.tag, node') ∈ (some key, node) :: members ↔
            (some e.tag, node') ∈ members := by
          simp [Ne.symm tag]
        rw [collect_other tag, List.forall_mem_cons, kept]
        simp only [elsewhere, ih distinct.tail]
        constructor
        · rintro ⟨read, rest, ⟨whole, named, rfl⟩, last⟩
          exact ⟨⟨⟨key, rfl, fun _ => read⟩, whole⟩, named, last⟩
        · rintro ⟨⟨⟨_, ⟨⟩, read⟩, whole⟩, named, last⟩
          exact ⟨read tag, _, ⟨whole, named, rfl⟩, last⟩

theorem decodeTag_variant {node : Node} {variant : Fields α}
    (h : e.decodeTag node = .ok variant) : ∃ v ∈ e.variants, v.2 = variant := by
  unfold decodeTag at h
  split at h
  · exact Variants.exists_of_find h
  · cases h

theorem decodeMembers_of_perm (unordered : ∀ v ∈ e.variants, v.2.Unordered)
    (perm : members.Perm members') (distinct : Distinct members) {value : α}
    (h : e.decodeMembers source members true = .ok value) :
    e.decodeMembers source members' true = .ok value := by
  obtain ⟨⟨variant, rest⟩, collected, read⟩ := Result.bind_ok h
  obtain ⟨whole, ⟨node, tag, named⟩, rfl⟩ := (collect_none distinct).1 collected
  have collected' : e.collect source true none members' =
      .ok (variant, members'.filter (·.1 ≠ some e.tag)) :=
    (collect_none (distinct.perm perm)).2
      ⟨fun m among => whole m (perm.mem_iff.2 among), ⟨node, perm.mem_iff.1 tag, named⟩, rfl⟩
  obtain ⟨v, among, rfl⟩ := decodeTag_variant named
  have same := unordered v among _ _ (perm.filter (·.1 ≠ some e.tag)) (distinct.filter _)
  exact Result.bind_ok_iff.2 ⟨_, collected', (same value).1 read⟩

theorem decodeMembers_perm (unordered : ∀ v ∈ e.variants, v.2.Unordered)
    (perm : members.Perm members') (distinct : Distinct members) :
    Agree (e.decodeMembers source members true) (e.decodeMembers source members' true) :=
  fun _ => ⟨decodeMembers_of_perm unordered perm distinct,
    decodeMembers_of_perm unordered perm.symm (distinct.perm perm)⟩

theorem unordered (h : ∀ v ∈ e.variants, v.2.Unordered) : Unordered e.decode :=
  unordered_of_enter (fun _ _ => rfl) fun _ _ _ perm distinct => decodeMembers_perm h perm distinct

end Internal

end EndpointMonitor.Wire
