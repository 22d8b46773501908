import ContractDraft.Proofs.Settings.Overlay
import ContractDraft.Proofs.Settings.Schemas

/-!
# Dialect files that leave members out

A dialect file may give any of the members of a dialect, and its table of matcher calls any of the
calls, in any order and between members of other names. Which files those are, and what they give,
is said by `DialectText`. Each is read as the classic dialect with the given members in place of its
own (`Dialect.ofJsonText_overlay`). A table of calls is laid over the standard table in the same
way, but a call is not laid over the standard call: where its pattern is not given it has none, and
where its flag is not given it takes an example.
-/

namespace ContractDraft

/-! ## The record types -/

theorem MatcherCall.lawful_schema : MatcherCall.schema.Lawful where
  names := by decide
  restores := by simp [schema]
  independent := by simp [RecordSchema.Independent, schema]

theorem MatcherTable.lawful_schema : MatcherTable.schema.Lawful where
  names := by decide
  restores := by simp [schema, callMember, Member.record_spec MatcherCall.restores_schema]
  independent := by
    simp [RecordSchema.Independent, schema, callMember,
      Member.record_spec MatcherCall.restores_schema]

theorem Dialect.lawful_schema : Dialect.schema.Lawful where
  names := by decide
  restores := by simp [schema, Member.record_spec MatcherTable.restores_schema]
  independent := by
    simp [RecordSchema.Independent, schema, Member.record_spec MatcherTable.restores_schema]

/-! ## Matcher calls -/

/-- What a file gives of a matcher call. -/
structure CallPatch where
  method : String
  /-- An argument between key and example, or that there is none. -/
  pattern : Option (Option String) := none
  withExample : Option Bool := none

namespace CallPatch

/-- The call that is given. No other call has a part in it. -/
def call (p : CallPatch) : MatcherCall where
  method := p.method
  pattern := p.pattern.getD none
  withExample := p.withExample.getD true

/-- The written call. -/
def written (p : CallPatch) : Entry :=
  MatcherCall.schema.write p.call

end CallPatch

/-- The texts of a matcher call: its method, and any of the other members. -/
inductive CallText : List Char → CallPatch → Prop where
  | table {t : List Char} {given : String → Option Entry} {p : CallPatch} :
      RecordSchema.PartialTable MatcherCall.schema MatcherCall.schema.MemberText t given →
      given "method" = some (.text p.method) →
      given "pattern" = p.pattern.map (fun pattern => pattern.elim .null .text) →
      given "example" = p.withExample.map .flag → CallText t p

theorem eq_getD_of_written {pattern : Option String} {given : Option (Option String)}
    (h : pattern.elim Entry.null .text =
      (given.map fun pattern => pattern.elim Entry.null .text).getD .null) :
    pattern = given.getD none := by
  rcases given with _ | _ | v <;> cases pattern <;> simp_all

/-- A call is read as what is given of it, with no pattern and with an example where the text does
not say. -/
theorem read_callText {t : List Char} {p : CallPatch} (h : CallText t p) {before rest : List Char}
    (hbefore : Blanks before) :
    MatcherCall.schema.read { method := "" } (before ++ (t ++ rest)) = .ok (p.call, rest) := by
  obtain ⟨htable, hmethod, hpattern, hexample⟩ := h
  have hvalue : ∀ member ∈ MatcherCall.schema, ∀ t entry,
      MatcherCall.schema.MemberText member.name t entry → member.Gives t (id entry) :=
    fun member hmember _ _ => MatcherCall.lawful_schema.gives_of_memberText hmember
  have hrequired : ∀ member ∈ MatcherCall.schema, member.required = true →
      member.name = "method" := by decide
  obtain ⟨c, hread, hwrite⟩ :=
    RecordSchema.read_partialTable MatcherCall.lawful_schema hvalue htable
      (fun member hmember hneeded => by simp [hrequired member hmember hneeded, hmethod])
      { method := "" }
  have hcall : c = p.call := by
    obtain ⟨method, pattern, withExample⟩ := c
    obtain ⟨_, given, flag⟩ := p
    obtain ⟨rfl, hsame, rfl⟩ : method = _ ∧ pattern.elim .null .text =
        (given.map fun pattern => pattern.elim Entry.null .text).getD .null ∧
        withExample = flag.getD true := by
      simpa [RecordSchema.write, RecordSchema.overlay, MatcherCall.schema, hmethod, hpattern,
        hexample] using hwrite
    rw [eq_getD_of_written hsame]
    rfl
  rw [← hcall]
  exact hread before rest hbefore

/-! ## The table of calls -/

/-- The standard table with the given calls in place of its own. -/
def MatcherTable.laid (calls : String → Option CallPatch) : Entry :=
  MatcherTable.schema.overlay .standard fun key => (calls key).map CallPatch.written

theorem MatcherTable.exists_callMember {member : Member MatcherTable}
    (h : member ∈ MatcherTable.schema) (c : MatcherCall) :
    ∃ name get set, member = callMember name get set ∧ ∃ source, get source = c := by
  have hall : ∀ member ∈ MatcherTable.schema, ∃ name get set, member = callMember name get set ∧
      get ⟨c, c, c, c, c, c, c, c, c, c, c⟩ = c := by
    simp only [schema, List.forall_mem_cons, List.not_mem_nil, false_imp_iff, implies_true,
      and_true]
    and_intros <;> exact ⟨_, _, _, rfl, rfl⟩
  obtain ⟨name, get, set, hmember, hget⟩ := hall member h
  exact ⟨name, get, set, hmember, _, hget⟩

theorem read_calls {t : List Char} {calls : String → Option CallPatch}
    (h : RecordSchema.PartialTable MatcherTable.schema (fun _ => CallText) t calls) :
    ∃ table, (∀ before rest, Blanks before →
        MatcherTable.schema.read .standard (before ++ (t ++ rest)) = .ok (table, rest)) ∧
      MatcherTable.schema.write table = MatcherTable.laid calls := by
  have hvalue : ∀ member ∈ MatcherTable.schema, ∀ t p, CallText t p → member.Gives t p.written := by
    intro member hmember t p hp
    obtain ⟨name, get, set, rfl, source, hsource⟩ :=
      MatcherTable.exists_callMember hmember p.call
    exact Member.record_gives MatcherCall.restores_schema
      (fun _ _ hbefore => read_callText hp hbefore) ⟨source, hsource⟩
  have hrequired : ∀ member ∈ MatcherTable.schema, member.required = false := by decide
  exact RecordSchema.read_partialTable MatcherTable.lawful_schema hvalue h
    (fun member hmember hneeded => by simp [hrequired member hmember] at hneeded) .standard

/-! ## Dialects -/

/-- What a file gives for a member of a dialect. -/
inductive DialectValue where
  | single (entry : Entry)
  | matchers (calls : String → Option CallPatch)

/-- What stands in the written dialect. -/
def DialectValue.written : DialectValue → Entry
  | .single entry => entry
  | .matchers calls => MatcherTable.laid calls

/-- The texts of a member's value: an entry of the kind that the member has, or for the table of
calls any part of it. -/
inductive DialectValueText (key : String) (t : List Char) : DialectValue → Prop where
  | single {entry : Entry} : Dialect.schema.MemberText key t entry →
      DialectValueText key t (.single entry)
  | matchers {calls : String → Option CallPatch} : key = "matchers" →
      RecordSchema.PartialTable MatcherTable.schema (fun _ => CallText) t calls →
      DialectValueText key t (.matchers calls)

/-- The texts of dialect files, and what they give by the names of the members. -/
inductive DialectText : List Char → (String → Option DialectValue) → Prop where
  | text {before t after : List Char} {given : String → Option DialectValue} : Blanks before →
      RecordSchema.PartialTable Dialect.schema DialectValueText t given → Blanks after →
      DialectText (before ++ t ++ after) given

namespace Dialect

theorem gives_of_dialectValueText {member : Member Dialect} (hmember : member ∈ schema)
    {t : List Char} {v : DialectValue} (h : DialectValueText member.name t v) :
    member.Gives t v.written := by
  cases h with
  | single h => exact lawful_schema.gives_of_memberText hmember h
  | matchers hname h =>
    obtain ⟨table, hread, hwrite⟩ := read_calls h
    have hlast : .record "matchers" MatcherTable.schema .standard (·.matchers)
        (fun d v => { d with matchers := v }) ∈ schema :=
      List.mem_of_getElem? (show schema[33]? = some _ from rfl)
    obtain rfl := lawful_schema.eq_of_name hlast hmember hname
    rw [DialectValue.written, ← hwrite]
    exact Member.record_gives MatcherTable.restores_schema hread
      ⟨{ classic with matchers := table }, rfl⟩

theorem load_dialectText {text : String} {given : String → Option DialectValue}
    (h : DialectText text.toList given) :
    ∃ d, ofJsonText text = .ok d ∧
      schema.write d = schema.overlay classic fun key => (given key).map DialectValue.written := by
  generalize hwhole : text.toList = whole at h
  obtain @⟨before, t, after, _, hbefore, htable, hafter⟩ := h
  have hrequired : ∀ member ∈ schema, member.required = false := by decide
  obtain ⟨d, hread, hwrite⟩ := RecordSchema.read_partialTable lawful_schema
    (fun _ hmember _ _ => gives_of_dialectValueText hmember) htable
    (fun member hmember hneeded => by simp [hrequired member hmember] at hneeded) classic
  have htext : schema.read classic text.toList = .ok (d, after) := by
    rw [hwhole, List.append_assoc]
    exact hread before after hbefore
  have hskip : skipBlanks after = [] := by
    simpa using skipBlanks_append hafter (ends_nil _)
  exact ⟨d, bind_eq_ok_iff.mpr ⟨_, htext, by simp [hskip]⟩, hwrite⟩

end Dialect
end ContractDraft
