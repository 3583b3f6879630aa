import Markup.Proofs.Json.Forms
import Markup.Proofs.Json.Reading

/-!
# Declarations survive their JSON text

What writes declarations as JSON and reads them again is a library of its own, of which nothing is
known here but what it promises: it writes the compact form of the declarations and escapes no more
than it must (`WritesCompact`, `IsEscaping`), and it reads every text of a form of declarations that
nests no deeper than its limit (`ReadsForms`).  So what it writes it reads again, with the variables
of each element in their order (`Json.deserialize_serialize`).

`Json.render` is such a writer and `Json.declarationsOfText` such a reader.
-/

namespace Markup
namespace Json

/-! ## what is written -/

/-- a structure is written as an object with its fields in their order, without blanks -/
def WritesCompact (esc : Char → List Char) (serialize : Declarations → String) : Prop :=
  ∀ d : Declarations, d.HasDistinctVariables →
    serialize d = String.ofList ((ofDeclarations d).chars esc)

theorem writesCompact_render : WritesCompact escape fun d => (ofDeclarations d).render :=
  fun _ _ => rfl

theorem isLegible_list {α : Type} {encode : α → Json} {items : List α}
    (h : ∀ a ∈ items, IsLegible (encode a)) : IsLegible (list encode items) :=
  .array (List.forall_mem_map.mpr h)

theorem isLegible_ofKind (kind : ElementKind) : IsLegible (ofKind kind) := by
  cases kind <;> exact .text _

theorem isLegible_orNull (name? : Option String) : IsLegible (orNull text name?) := by
  cases name? with
  | none => exact .null
  | some name => exact .text name

theorem isLegible_ofNamed (name value : String) : IsLegible (ofNamed name value) :=
  .record (List.forall_mem_cons.mpr ⟨.text name, List.forall_mem_singleton.mpr (.text value)⟩)

theorem isLegible_ofVariable (v : Variable) : IsLegible (ofVariable v) :=
  .record (List.forall_mem_cons.mpr ⟨.text v.value, List.forall_mem_singleton.mpr (.text _)⟩)

mutual

theorem isLegible_ofElement (e : Element) : IsLegible (ofElement e) := by
  obtain ⟨typeName, kind, name?, properties, vars, children⟩ := e
  refine .record ?_
  simp only [List.forall_mem_cons]
  refine ⟨.text typeName, isLegible_ofKind kind, isLegible_orNull name?, ?_, ?_, ?_, ?_⟩
  · exact isLegible_list fun p _ => isLegible_ofNamed p.name p.value
  · exact .record (List.forall_mem_map.mpr fun v _ => isLegible_ofVariable v.2)
  · exact .array (isLegible_ofElements children)
  · exact fun _ h => absurd h List.not_mem_nil

theorem isLegible_ofElements (es : List Element) : ∀ j ∈ ofElements es, IsLegible j := by
  match es with
  | [] => exact fun _ h => absurd h List.not_mem_nil
  | e :: es => exact List.forall_mem_cons.mpr ⟨isLegible_ofElement e, isLegible_ofElements es⟩

end

theorem isLegible_ofDeclarations (d : Declarations) : IsLegible (ofDeclarations d) := by
  refine .record (List.forall_mem_cons.mpr ⟨?_, List.forall_mem_singleton.mpr ?_⟩)
  · refine isLegible_list fun e _ => .record (List.forall_mem_cons.mpr ⟨?_, ?_⟩)
    · exact isLegible_ofElement e.root
    · exact List.forall_mem_singleton.mpr (.text e.file)
  · exact isLegible_list fun c _ => isLegible_ofNamed c.name c.value

/-! ## what is read -/

/-- a text of a form that nests no deeper than the limit is read as the declarations -/
def ReadsForms (limit : Nat) (deserialize : String → Option Declarations) : Prop :=
  ∀ ⦃s : String⦄ ⦃j : Json⦄ ⦃d : Declarations⦄, Spelling j s.toList [] → IsDeclarations j d →
    j.depth ≤ limit → deserialize s = some d

theorem readsForms_declarationsOfText (limit : Nat) :
    ReadsForms limit fun s => declarationsOfText s limit := by
  intro s j d hs hj hd
  show (parse s).bind (toDeclarations limit) = some d
  rw [parse_of_spelling hs, Option.bind_some]
  exact toDeclarations_of_isDeclarations hj hd

/-- Declarations are read back from what is written of them.  Of the declarations this needs that no
element has two variables of one name, and of their form that it nests no deeper than is read. -/
theorem deserialize_serialize {esc : Char → List Char} {serialize : Declarations → String}
    {deserialize : String → Option Declarations} {limit : Nat} (hesc : IsEscaping esc)
    (hwrite : WritesCompact esc serialize) (hread : ReadsForms limit deserialize)
    {d : Declarations} (hv : d.HasDistinctVariables) (hd : (ofDeclarations d).depth ≤ limit) :
    deserialize (serialize d) = some d := by
  have hspelling : Spelling (ofDeclarations d) (serialize d).toList [] := by
    have htext := (isLegible_ofDeclarations d).spelling hesc []
    rw [hwrite d hv, String.toList_ofList]
    rwa [List.append_nil] at htext
  exact hread hspelling (isDeclarations_ofDeclarations hv) hd

/-- variables in an order of their own, and texts with all that is escaped -/
theorem deserialize_serialize_menu :
    let child : Element :=
      ⟨"UIBox", .toolkit, some "top\\é", [⟨"text", "\"a;\n\t\x01b\x7f\""⟩], [], []⟩
    let root : Element := ⟨"Menu", .userDefined, none, [⟨"w", "2"⟩, ⟨"w", ""⟩],
      [("z", ⟨"\"\u2028\"", .unresolved⟩), ("", ⟨"", .unresolved⟩), ("a", ⟨"\u20ac", .unresolved⟩)],
      [child, child]⟩
    let d : Declarations := ⟨[⟨root, "a\\b.kml"⟩], [⟨"K", "( 1 , 0 )"⟩, ⟨"K", ""⟩]⟩
    IsEscaping escape ∧ WritesCompact escape (fun d => (ofDeclarations d).render) ∧
      ReadsForms 127 (fun s => declarationsOfText s 127) ∧ d.HasDistinctVariables ∧
      (ofDeclarations d).depth ≤ 127 ∧
      declarationsOfText (ofDeclarations d).render 127 = some d := by
  intro child root d
  have hc : child.HasDistinctVariables := .mk (by decide) fun _ h => absurd h List.not_mem_nil
  have hr : root.HasDistinctVariables :=
    .mk (by decide) (List.forall_mem_cons.mpr ⟨hc, List.forall_mem_singleton.mpr hc⟩)
  have hv : d.HasDistinctVariables := List.forall_mem_singleton.mpr hr
  have hd : (ofDeclarations d).depth ≤ 127 := by decide
  have hread := readsForms_declarationsOfText 127
  exact ⟨isEscaping_escape, writesCompact_render, hread, hv, hd,
    deserialize_serialize isEscaping_escape writesCompact_render hread hv hd⟩

end Json
end Markup
