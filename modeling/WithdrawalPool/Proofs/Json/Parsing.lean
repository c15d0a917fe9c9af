/-
What is understood of a text that a value was written as.  The tokens of a value are read as the
value, whatever is around them, so a written text is read as the value and nothing else.
-/
import WithdrawalPool.Json.Reading
import WithdrawalPool.Json.Value
import WithdrawalPool.Proofs.Json.Scanning

namespace WithdrawalPool

namespace Json

/-- What holds of an array or an object as soon as it holds of its parts holds of every value. -/
@[elab_as_elim] theorem induction {p : Json → Prop} (null : p .null)
    (bool : ∀ value, p (.bool value)) (number : ∀ numeral, p (.number numeral))
    (string : ∀ text, p (.string text))
    (array : ∀ items, (∀ item ∈ items, p item) → p (.array items))
    (object : ∀ members, (∀ member ∈ members, p member.2) → p (.object members)) :
    ∀ value, p value
  | .null => null
  | .bool value => bool value
  | .number numeral => number numeral
  | .string text => string text
  | .array items => array items fun item _ =>
      induction null bool number string array object item
  | .object members => object members fun member _ =>
      induction null bool number string array object member.2
termination_by value => sizeOf value
decreasing_by
  · have hitem := List.sizeOf_lt_of_mem ‹item ∈ items›
    simp only [Json.array.sizeOf_spec]
    omega
  · have hmember := List.sizeOf_lt_of_mem ‹member ∈ members›
    have hvalue : sizeOf member.2 < sizeOf member := by
      cases member
      simp only [Prod.mk.sizeOf_spec]
      omega
    simp only [Json.object.sizeOf_spec]
    omega

mutual

/-- What a value is read as. -/
def reading : Json → Reading
  | null => .null
  | bool value => .bool value
  | number numeral => .number numeral
  | string text => .string (some text)
  | array items => .array (itemReadings items) true
  | object members => .object (memberReadings members) true

def itemReadings : List Json → List Reading
  | [] => []
  | item :: rest => item.reading :: itemReadings rest

def memberReadings : List (String × Json) → List Member
  | [] => []
  | (name, value) :: rest => (some name, value.reading) :: memberReadings rest

end

theorem memberReadings_eq_map (members : List (String × Json)) :
    memberReadings members = members.map fun member => (some member.1, member.2.reading) := by
  induction members with
  | nil => rfl
  | cons member rest ih => rw [memberReadings, ih, List.map_cons]

theorem itemTokens_cons_cons (item next : Json) (rest : List Json) :
    itemTokens (item :: next :: rest) = item.tokens ++ .comma :: itemTokens (next :: rest) := rfl

theorem memberTokens_cons_cons (member next : String × Json) (rest : List (String × Json)) :
    memberTokens (member :: next :: rest) =
      .string (some member.1) :: .colon :: member.2.tokens ++
        .comma :: memberTokens (next :: rest) := rfl

/-- The tokens of the value are read as the value, whatever is around them. -/
def Readable (value : Json) : Prop :=
  ∀ frames rest, readFrom .value frames (value.tokens.map some ++ rest) =
    readFrom (.endOf value.reading) frames rest

theorem readFrom_itemTokens {items : List Json} (hitems : ∀ item ∈ items, item.Readable)
    (hne : items ≠ []) (before : List Reading) (frames : List Frame)
    (rest : List (Option Token)) :
    readFrom .value (.array before :: frames)
        ((itemTokens items).map some ++ some .closeArray :: rest) =
      readFrom (.endOf (.array (before.reverse ++ itemReadings items) true)) frames rest := by
  induction items generalizing before with
  | nil => exact absurd rfl hne
  | cons item more ih =>
      have hitem := hitems item List.mem_cons_self
      cases more with
      | nil =>
          have hclose : readFrom (.endOf item.reading) (.array before :: frames)
              (some .closeArray :: rest) =
            readFrom (.endOf (.array (item.reading :: before).reverse true)) frames rest := rfl
          rw [itemTokens, hitem, hclose, List.reverse_cons]
          rfl
      | cons next more =>
          have hcomma (tail : List (Option Token)) :
              readFrom (.endOf item.reading) (.array before :: frames) (some .comma :: tail) =
                readFrom .value (.array (item.reading :: before) :: frames) tail := rfl
          have hmore := ih (fun later hlater => hitems later (List.mem_cons_of_mem _ hlater))
            (List.cons_ne_nil _ _) (item.reading :: before)
          rw [itemTokens_cons_cons, List.map_append, List.map_cons, List.append_assoc, hitem,
            List.cons_append, hcomma, hmore, List.reverse_cons, List.append_assoc]
          rfl

theorem readFrom_memberTokens {members : List (String × Json)}
    (hmembers : ∀ member ∈ members, member.2.Readable) (hne : members ≠ [])
    (before : List Member) (frames : List Frame) (rest : List (Option Token)) :
    readFrom (.name before) frames
        ((memberTokens members).map some ++ some .closeObject :: rest) =
      readFrom (.endOf (.object (before.reverse ++ memberReadings members) true)) frames rest := by
  induction members generalizing before with
  | nil => exact absurd rfl hne
  | cons member more ih =>
      obtain ⟨name, value⟩ := member
      have hvalue := hmembers (name, value) List.mem_cons_self
      have hname (tail : List (Option Token)) :
          readFrom (.name before) frames (some (.string (some name)) :: some .colon :: tail) =
            readFrom .value (.object before (some name) :: frames) tail := rfl
      cases more with
      | nil =>
          have hclose : readFrom (.endOf value.reading) (.object before (some name) :: frames)
              (some .closeObject :: rest) =
            readFrom (.endOf (.object ((some name, value.reading) :: before).reverse true))
              frames rest := rfl
          rw [memberTokens, List.map_cons, List.map_cons, List.cons_append, List.cons_append, hname,
            hvalue, hclose, List.reverse_cons]
          rfl
      | cons next more =>
          have hcomma (tail : List (Option Token)) :
              readFrom (.endOf value.reading) (.object before (some name) :: frames)
                  (some .comma :: tail) =
                readFrom (.name ((some name, value.reading) :: before)) frames tail := rfl
          have hmore := ih (fun later hlater => hmembers later (List.mem_cons_of_mem _ hlater))
            (List.cons_ne_nil _ _) ((some name, value.reading) :: before)
          rw [memberTokens_cons_cons, List.map_append, List.map_cons, List.map_cons,
            List.append_assoc, List.cons_append, List.cons_append, hname, hvalue, List.map_cons,
            List.cons_append, hcomma, hmore, List.reverse_cons, List.append_assoc]
          rfl

/-- No value starts with the end of an array, so the first item is read like the others. -/
theorem readFrom_firstItem {items : List Json} (hne : items ≠ []) (frames : List Frame)
    (rest : List (Option Token)) :
    readFrom .firstItem frames ((itemTokens items).map some ++ rest) =
      readFrom .value (.array [] :: frames) ((itemTokens items).map some ++ rest) := by
  have hitem (item : Json) (rest : List (Option Token)) :
      readFrom .firstItem frames (item.tokens.map some ++ rest) =
        readFrom .value (.array [] :: frames) (item.tokens.map some ++ rest) := by
    cases item <;> rfl
  cases items with
  | nil => exact absurd rfl hne
  | cons item more =>
      cases more with
      | nil => exact hitem item rest
      | cons next more =>
          rw [itemTokens_cons_cons, List.map_append, List.append_assoc]
          exact hitem item _

/-- The first name is read like the others. -/
theorem readFrom_firstName {members : List (String × Json)} (hne : members ≠ [])
    (frames : List Frame) (rest : List (Option Token)) :
    readFrom .firstName frames ((memberTokens members).map some ++ rest) =
      readFrom (.name []) frames ((memberTokens members).map some ++ rest) := by
  cases members with
  | nil => exact absurd rfl hne
  | cons member more => cases more <;> rfl

theorem readable (value : Json) : value.Readable := by
  induction value using Json.induction with
  | null => exact fun _ _ => rfl
  | bool value => exact fun _ _ => rfl
  | number numeral => exact fun _ _ => rfl
  | string text => exact fun _ _ => rfl
  | array items ih =>
      intro frames rest
      by_cases hne : items = []
      · subst hne
        rfl
      have hopen (tail : List (Option Token)) :
          readFrom .value frames (some .openArray :: tail) = readFrom .firstItem frames tail := rfl
      rw [tokens, List.map_append, List.map_cons, List.append_assoc, List.cons_append, hopen,
        readFrom_firstItem hne]
      exact readFrom_itemTokens ih hne [] frames rest
  | object members ih =>
      intro frames rest
      by_cases hne : members = []
      · subst hne
        rfl
      have hopen (tail : List (Option Token)) :
          readFrom .value frames (some .openObject :: tail) = readFrom .firstName frames tail :=
        rfl
      rw [tokens, List.map_append, List.map_cons, List.append_assoc, List.cons_append, hopen,
        readFrom_firstName hne]
      exact readFrom_memberTokens ih hne [] frames rest

/-- Every numeral in the value can be read back from its spelling. -/
inductive Plain : Json → Prop
  | null : Plain .null
  | bool (value : Bool) : Plain (.bool value)
  | number {numeral : Numeral} (h : numeral.Plain) : Plain (.number numeral)
  | string (text : String) : Plain (.string text)
  | array {items : List Json} (h : ∀ item ∈ items, Plain item) : Plain (.array items)
  | object {members : List (String × Json)} (h : ∀ member ∈ members, Plain member.2) :
      Plain (.object members)

theorem plain_itemTokens {items : List Json}
    (h : ∀ item ∈ items, ∀ t ∈ item.tokens, t.Plain) : ∀ t ∈ itemTokens items, t.Plain := by
  induction items with
  | nil => exact fun t ht => absurd ht List.not_mem_nil
  | cons item more ih =>
      obtain ⟨hitem, hmore⟩ := List.forall_mem_cons.1 h
      cases more with
      | nil => exact hitem
      | cons next more =>
          rw [itemTokens_cons_cons, List.forall_mem_append]
          exact ⟨hitem, List.forall_mem_cons.2 ⟨trivial, ih hmore⟩⟩

theorem plain_memberTokens {members : List (String × Json)}
    (h : ∀ member ∈ members, ∀ t ∈ member.2.tokens, t.Plain) :
    ∀ t ∈ memberTokens members, t.Plain := by
  induction members with
  | nil => exact fun t ht => absurd ht List.not_mem_nil
  | cons member more ih =>
      obtain ⟨hmember, hmore⟩ := List.forall_mem_cons.1 h
      have hnamed : ∀ t ∈ Token.string (some member.1) :: .colon :: member.2.tokens, t.Plain :=
        List.forall_mem_cons.2 ⟨trivial, List.forall_mem_cons.2 ⟨trivial, hmember⟩⟩
      cases more with
      | nil => exact hnamed
      | cons next more =>
          rw [memberTokens_cons_cons, List.forall_mem_append]
          exact ⟨hnamed, List.forall_mem_cons.2 ⟨trivial, ih hmore⟩⟩

theorem Plain.tokens {value : Json} (h : value.Plain) : ∀ t ∈ value.tokens, t.Plain := by
  induction h with
  | null => exact List.forall_mem_singleton.2 trivial
  | bool => exact List.forall_mem_singleton.2 trivial
  | number h => exact List.forall_mem_singleton.2 h
  | string => exact List.forall_mem_singleton.2 trivial
  | array _ ih =>
      rw [Json.tokens, List.forall_mem_append, List.forall_mem_cons]
      exact ⟨⟨trivial, plain_itemTokens ih⟩, List.forall_mem_singleton.2 trivial⟩
  | object _ ih =>
      rw [Json.tokens, List.forall_mem_append, List.forall_mem_cons]
      exact ⟨⟨trivial, plain_memberTokens ih⟩, List.forall_mem_singleton.2 trivial⟩

theorem Separated.cons {t : Token} {ts : List Token} (ht : t.isOpenEnded = false)
    (h : Separated ts) : Separated (t :: ts) := by
  refine List.isChain_cons.2 ⟨fun u _ hopen => ?_, h⟩
  rw [ht] at hopen
  contradiction

theorem Separated.append_mark {before after : List Token} {mark : Token}
    (hbefore : Separated before) (hmark : mark.isMark = true) (hafter : Separated after) :
    Separated (before ++ mark :: after) := by
  have hclosed : mark.isOpenEnded = false := by
    cases mark <;> first | rfl | contradiction
  refine List.isChain_append.2 ⟨hbefore, hafter.cons hclosed, ?_⟩
  rintro t _ u ⟨⟩ _
  exact hmark

theorem separated_itemTokens {items : List Json} (h : ∀ item ∈ items, Separated item.tokens) :
    Separated (itemTokens items) := by
  induction items with
  | nil => exact List.isChain_nil
  | cons item more ih =>
      obtain ⟨hitem, hmore⟩ := List.forall_mem_cons.1 h
      cases more with
      | nil => exact hitem
      | cons next more => exact hitem.append_mark rfl (ih hmore)

theorem separated_memberTokens {members : List (String × Json)}
    (h : ∀ member ∈ members, Separated member.2.tokens) : Separated (memberTokens members) := by
  induction members with
  | nil => exact List.isChain_nil
  | cons member more ih =>
      obtain ⟨hmember, hmore⟩ := List.forall_mem_cons.1 h
      have hnamed : Separated (.string (some member.1) :: .colon :: member.2.tokens) :=
        (hmember.cons rfl).cons rfl
      cases more with
      | nil => exact hnamed
      | cons next more => exact hnamed.append_mark rfl (ih hmore)

/-- In a value every word and every numeral is followed by a mark, unless it is the last token. -/
theorem separated_tokens (value : Json) : Separated value.tokens := by
  induction value using Json.induction with
  | null => exact List.isChain_singleton _
  | bool => exact List.isChain_singleton _
  | number => exact List.isChain_singleton _
  | string => exact List.isChain_singleton _
  | array items ih =>
      exact ((separated_itemTokens ih).cons rfl).append_mark rfl List.isChain_nil
  | object members ih =>
      exact ((separated_memberTokens ih).cons rfl).append_mark rfl List.isChain_nil

/-- The text of a value is read as the value, to the end. -/
theorem ofText_of_spells {value : Json} (h : value.Plain) {text : String}
    (hspells : Spells text.toList value.tokens) :
    Document.ofText text = ⟨value.reading, true⟩ := by
  have hscan : scan text = value.tokens.map some :=
    hspells.scanFrom h.tokens value.separated_tokens
  have hread := value.readable [] []
  rw [List.append_nil] at hread
  rw [Document.ofText, hscan, hread]
  rfl

theorem spells_write (value : Json) : Spells value.write.toList value.tokens := by
  rw [write, String.toList_ofList]
  exact spells_flatMap_spell _

theorem ofText_write {value : Json} (h : value.Plain) :
    Document.ofText value.write = ⟨value.reading, true⟩ :=
  ofText_of_spells h (spells_write value)

end Json

end WithdrawalPool
