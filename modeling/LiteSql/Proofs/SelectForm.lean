import LiteSql.Proofs.Containment
import LiteSql.Proofs.Phrases

/-!
# The form of a SELECT

What has to hold of a SELECT for SQLite to read it: every item of the projection has
a text, an `OFFSET` stands directly after a `LIMIT`, and every distinct call has an
argument. All three are read off the text. Each of them is a condition on the query
that is not checked when it is compiled.
-/

namespace LiteSql

/-- The words of the projection of a SELECT. -/
def projectionWords (sql : Text) : List Text :=
  let rest := (outerWords sql).tail
  (if rest.head? = some "DISTINCT".toList then rest.tail else rest).takeWhile
    (· ≠ "FROM".toList)

/-- The keywords with which the clauses of a statement start. -/
def clauseWords (sql : Text) : List Text :=
  (outerWords sql).filter (· ∈ clauseKeywords)

/-- The clause before an `OFFSET` is a `LIMIT`. -/
def OffsetFollowsLimit (sql : Text) : Prop :=
  List.IsChain (fun before word => word = "OFFSET".toList → before = "LIMIT".toList)
    (clauseWords sql)

/-- A part of a statement after its projection, with its clause keywords. -/
def IsClause (s : Text) (n : Nat) (keywords : List Text) : Prop :=
  ∃ ws, Frames s ws n ∧ ws.filter (· ∈ clauseKeywords) = keywords

theorem Phrase.filter_eq_nil {s : Text} {n : Nat} (hs : Phrase s n) :
    (outerWords s).filter (· ∈ clauseKeywords) = [] := by
  rw [List.filter_eq_nil_iff]
  simpa using hs.no_keyword

namespace IsClause

theorem nil : IsClause [] 0 [] :=
  ⟨[], .nil, rfl⟩

theorem append {s t : Text} {n m : Nat} {keywords keywords' : List Text}
    (hs : IsClause s n keywords) (ht : IsClause t m keywords') :
    IsClause (s ++ t) (n + m) (keywords ++ keywords') := by
  obtain ⟨ws, hws, rfl⟩ := hs
  obtain ⟨us, hus, rfl⟩ := ht
  exact ⟨ws ++ us, hws.append hus, List.filter_append ..⟩

/-- A lead of plain words and what follows it. -/
theorem led {lead s : Text} {n : Nat} {keywords : List Text}
    (hlead : Avoids "'\"()".toList lead) (hkeywords : clauseWords lead = keywords)
    (hs : Phrase s n) : IsClause (' ' :: (lead ++ ' ' :: s)) n keywords := by
  have hframed : Framed (lead ++ ' ' :: s) (outerWords lead ++ outerWords s) (0 + n) :=
    (Frames.blank hs.framed).after (.plain hlead)
  rw [Nat.zero_add] at hframed
  refine ⟨_, .blank hframed, ?_⟩
  rw [List.filter_append, hs.filter_eq_nil, List.append_nil]
  exact hkeywords

end IsClause

/-- A keyword if a part of the query is there. -/
def wordIf (present : Bool) (word : String) : List Text :=
  if present then [word.toList] else []

theorem Phrase.joined {α : Type} {separator : String} {count : α → Nat}
    (hseparator : ∀ {s t : Text} {n m : Nat}, Phrase s n → Phrase t m →
      Phrase (s ++ (separator.toList ++ t)) (n + m)) {as : List α} {i : Nat} {ss : List Text}
    {vs : List Value} (h : Emit.Each (fun a _ s _ => Phrase s (count a)) as i ss vs) :
    Phrase (Text.joined separator ss) ((as.map count).sum) := by
  unfold Text.joined
  induction h with
  | nil i => exact .nil
  | @cons a as i s ss vs ws hs hrest ih =>
      cases hrest with
      | nil => simpa using hs
      | cons ht hrest =>
          rw [List.intercalate_cons_cons, List.append_assoc]
          exact hseparator hs ih

theorem Phrase.conjunction {s t : Text} {n m : Nat} (hs : Phrase s n) (ht : Phrase t m) :
    Phrase (s ++ (" AND ".toList ++ t)) (n + m) := by
  have hword : Phrase "AND".toList 0 := .word (by decide) (by decide) (by decide)
  have hright := hword.blank ht
  rw [Nat.zero_add] at hright
  exact hs.blank hright

section Clauses

variable {q : Query}

theorem filterClause_isClause (keyword : String)
    (hkeyword : Avoids "'\"()".toList keyword.toList)
    (hword : clauseWords keyword.toList = [keyword.toList]) {filters : List Expr}
    (h : ∀ node ∈ nodesOfEach filters, node.KeepsWords) :
    (filterClause keyword (q.namedSources .select) filters).Ensures fun _ s _ =>
      IsClause s ((nodesOfEach filters).countP (Node.isEmptyCall q.sources))
        (wordIf (!filters.isEmpty) keyword) := by
  cases filters with
  | nil => exact .pure fun _ => .nil
  | cons e es =>
      refine (emitEach_isItem (e :: es) h).map fun i ss vs hss => ?_
      have hgroups : Emit.Each
          (fun e _ s _ => Phrase s (e.nodes.countP (Node.isEmptyCall q.sources))) (e :: es) i
          (ss.map Text.parenthesized) vs :=
        hss.map fun _ _ _ _ hs => (Item.group hs.framed hs.head?_ne).toPhrase
      have hjoined := Phrase.joined Phrase.conjunction hgroups
      rw [sum_countP_nodes] at hjoined
      exact .led hkeyword hword hjoined

theorem listClause_isClause (keyword word : String)
    (hkeyword : Avoids "'\"()".toList keyword.toList)
    (hword : clauseWords keyword.toList = [word.toList]) {es : List Expr}
    (h : ∀ node ∈ nodesOfEach es, node.KeepsWords) :
    (listClause keyword (q.namedSources .select) es).Ensures fun _ s _ =>
      IsClause s ((nodesOfEach es).countP (Node.isEmptyCall q.sources))
        (wordIf (!es.isEmpty) word) := by
  cases es with
  | nil => exact .pure fun _ => .nil
  | cons e es =>
      have hlist : (emitList (q.namedSources .select) (e :: es)).Ensures fun _ s _ =>
          Phrase s ((nodesOfEach (e :: es)).countP (Node.isEmptyCall q.sources)) :=
        (emitEach_isItem (e :: es) h).map fun i ss vs hss => (Items.of_each hss).toPhrase
      exact hlist.map fun i s vs hs => .led hkeyword hword hs

theorem optionalClause_isClause (keyword : String)
    (hkeyword : Avoids "'\"()".toList keyword.toList)
    (hword : clauseWords keyword.toList = [keyword.toList]) {expr : Option Expr}
    (h : ∀ node ∈ nodesOfEach expr.toList, node.KeepsWords) :
    (optionalClause keyword (q.namedSources .select) expr).Ensures fun _ s _ =>
      IsClause s ((nodesOfEach expr.toList).countP (Node.isEmptyCall q.sources))
        (wordIf expr.isSome keyword) := by
  cases expr with
  | none => exact .pure fun _ => .nil
  | some e =>
      rw [Option.toList_some, nodesOfEach, nodesOfEach, List.append_nil] at h ⊢
      exact (e.emit_isItem h).map fun i s vs hs => .led hkeyword hword hs.toPhrase

theorem orderClause_isClause {terms : List OrderTerm}
    (h : ∀ node ∈ terms.flatMap OrderTerm.nodes, node.KeepsWords) :
    (orderClause (q.namedSources .select) terms).Ensures fun _ s _ =>
      IsClause s ((terms.flatMap OrderTerm.nodes).countP (Node.isEmptyCall q.sources))
        (wordIf (!terms.isEmpty) "ORDER") := by
  have hdesc : Phrase "DESC".toList 0 := .word (by decide) (by decide) (by decide)
  have hterm : ∀ term ∈ terms, (term.emit (q.namedSources .select)).Ensures fun _ s _ =>
      Phrase s (term.nodes.countP (Node.isEmptyCall q.sources)) := by
    intro term hmem
    have hnodes : ∀ node ∈ term.expr.nodes, node.KeepsWords := fun node hnode =>
      h node (List.mem_flatMap.mpr ⟨term, hmem, hnode⟩)
    refine (term.expr.emit_isItem hnodes).map fun i s vs hs => ?_
    cases term.direction with
    | ascending => exact hs.toPhrase
    | descending => exact hs.toPhrase.blank hdesc
  cases terms with
  | nil => exact .pure fun _ => .nil
  | cons term terms =>
      refine (Emit.Ensures.forEach hterm).map fun i ss vs hss => ?_
      have hclause : IsClause (' ' :: ("ORDER BY".toList ++ ' ' :: Text.joined ", " ss)) _
          ["ORDER".toList] := .led (by decide) (by decide) (Phrase.joined Phrase.comma hss)
      rw [List.countP_flatMap]
      exact hclause

/-- The name and the handle of a table. -/
theorem sourceAt_emits_phrase {k : Nat} {s : NamedSource}
    (h : sourceAt (q.namedSources .select) k = .ok s) (htable : s.IsTable) :
    (s.emit (q.namedSources .select)).Ensures fun _ t _ => Phrase t 0 := by
  obtain ⟨-, hhandle, hname⟩ := sourceAt_select h
  have has : Phrase "AS".toList 0 := .word (by decide) (by decide) (by decide)
  unfold NamedSource.emit
  split
  · rename_i name fields hsource
    obtain ⟨table, htext⟩ :
        ∃ table : QualifiedName, s.table.getD (quoteIdentifier name) = table.quote := by
      cases htext : s.table with
      | none => exact ⟨⟨none, name⟩, rfl⟩
      | some t => exact hname t htext
    rw [htext, List.append_assoc]
    have halias := has.blank (Item.handle hhandle).toPhrase
    exact .pure fun _ => (Item.quote table).toPhrase.blank halias
  · rename_i body hsource
    exact absurd hsource (htable body)

theorem Association.condition_phrase (a : Association) {joined owner : NamedSource}
    (hjoined : IsHandle joined.handle) (howner : IsHandle owner.handle) :
    Phrase (a.condition joined owner) 0 := by
  have hequals : Phrase "=".toList 0 := .word (by decide) (by decide) (by decide)
  have hboth (key key' : String) :
      Phrase (joined.column key ++ " = ".toList ++ owner.column key') 0 := by
    rw [List.append_assoc]
    have hright := hequals.blank (Item.column howner key').toPhrase
    exact (Item.column hjoined key).toPhrase.blank hright
  unfold Association.condition
  split <;> exact hboth _ _

theorem Source.nodes_eq_nil {source : Source} (h : ∀ node ∈ source.nodes, node.KeepsWords) :
    source.nodes = [] := by
  cases source with
  | table name fields => rfl
  | fragment body => exact absurd h body.not_keepsWords

theorem Join.emit_isClause
    (htables : ∀ k s, sourceAt (q.namedSources .select) k = .ok s → s.IsTable) (position : Nat)
    {join : Join} (h : ∀ node ∈ join.nodes, node.KeepsWords) :
    (join.emit (q.namedSources .select) position).Ensures fun _ s _ =>
      IsClause s (join.nodes.countP (Node.isEmptyCall q.sources)) [] := by
  have hon : Phrase "ON".toList 0 := .word (by decide) (by decide) (by decide)
  refine .ofExcept_bind fun joined hjoined => ?_
  have hsource := sourceAt_emits_phrase hjoined (htables position joined hjoined)
  have hhandle := (sourceAt_select hjoined).2.1
  cases join with
  | conditional kind source condition =>
      rw [Join.nodes, List.forall_mem_append] at h
      rw [Join.nodes, Source.nodes_eq_nil h.1, List.nil_append]
      refine .ofExcept_bind fun keyword hkeyword => ?_
      refine hsource.map₂ (condition.emit_isItem h.2) fun _ s _ t _ hs ht => ?_
      have hright := hs.blank (hon.blank ht.toPhrase)
      rw [Nat.zero_add, Nat.zero_add] at hright
      rw [List.append_assoc]
      cases kind with
      | inner =>
          cases hkeyword
          exact .led (by decide) (by decide) hright
      | left =>
          cases hkeyword
          exact .led (by decide) (by decide) hright
      | right => cases hkeyword
      | full => cases hkeyword
  | cross source =>
      rw [Join.nodes] at h
      rw [Join.nodes, Source.nodes_eq_nil h]
      have hclause {s : Text} (hs : Phrase s 0) :
          IsClause (' ' :: ("CROSS JOIN".toList ++ ' ' :: s)) 0 [] :=
        .led (by decide) (by decide) hs
      exact hsource.map fun _ s _ hs => hclause hs
  | associated source association =>
      rw [Join.nodes] at h
      rw [Join.nodes, Source.nodes_eq_nil h]
      refine .refuseIf_bind fun _ => .ofExcept_bind fun owner howner => ?_
      refine hsource.map fun _ s _ hs => ?_
      have hcondition := association.condition_phrase hhandle (sourceAt_select howner).2.1
      have hclause : IsClause (' ' :: ("INNER JOIN".toList ++ ' ' ::
          (s ++ ' ' :: ("ON".toList ++ ' ' :: association.condition joined owner)))) 0 [] :=
        .led (by decide) (by decide) (hs.blank (hon.blank hcondition))
      rw [List.append_assoc, List.append_assoc]
      exact hclause

theorem emitJoins_isClause
    (htables : ∀ k s, sourceAt (q.namedSources .select) k = .ok s → s.IsTable) (position : Nat)
    {joins : List Join} (h : ∀ node ∈ joins.flatMap Join.nodes, node.KeepsWords) :
    (emitJoins (q.namedSources .select) position joins).Ensures fun _ s _ =>
      IsClause s ((joins.flatMap Join.nodes).countP (Node.isEmptyCall q.sources)) [] := by
  induction joins generalizing position with
  | nil => exact .pure fun _ => .nil
  | cons join joins ih =>
      rw [List.flatMap_cons, List.forall_mem_append] at h
      rw [List.flatMap_cons, List.countP_append]
      exact (Join.emit_isClause htables position h.1).map₂ (ih (position + 1) h.2)
        fun _ _ _ _ _ hfirst hrest => hfirst.append hrest

/-- The source clause starts with the keyword that ends the projection. -/
theorem sourceClause_frames
    (htables : ∀ k s, sourceAt (q.namedSources .select) k = .ok s → s.IsTable) :
    (sourceClause (q.namedSources .select)).Ensures fun _ s _ =>
      ∃ ws, Frames s ("FROM".toList :: ws) 0 ∧ ws.filter (· ∈ clauseKeywords) = [] := by
  refine .ofExcept_bind fun primary hprimary => ?_
  refine (sourceAt_emits_phrase hprimary (htables 0 primary hprimary)).map fun _ s _ hs => ?_
  have hframed : Framed ("FROM".toList ++ ' ' :: s) _ _ :=
    (Frames.blank hs.framed).after (.word (by decide) (by decide))
  exact ⟨outerWords s, .blank hframed, hs.filter_eq_nil⟩

theorem projectionClause_phrase
    (h : ∀ node ∈ nodesOfEach (q.projection.getD [.row 0]), node.KeepsWords) :
    (projectionClause (q.namedSources .select) q.projection).Ensures fun _ s _ =>
      Phrase s ((nodesOfEach (q.projection.getD [.row 0])).countP (Node.isEmptyCall q.sources)) ∧
        filledItems false (outerWords s) =
          (q.projection.getD [.row 0]).all fun e => !e.isEmptyRow q.sources := by
  have hitems {es : List Expr} (hne : es ≠ []) {i : Nat} {ss : List Text} {vs : List Value}
      (hss : Emit.Each (fun e _ s _ => e.IsItem q s) es i ss vs) :
      Phrase (Text.joined ", " ss) ((nodesOfEach es).countP (Node.isEmptyCall q.sources)) ∧
        filledItems false (outerWords (Text.joined ", " ss)) =
          es.all fun e => !e.isEmptyRow q.sources := by
    have hlist := Items.of_each hss
    refine ⟨hlist.toPhrase, ?_⟩
    rw [hlist.filled (by simpa using hne), List.all_map]
    rfl
  cases hprojection : q.projection with
  | none =>
      rw [hprojection] at h
      refine ((Expr.row 0).emit_isItem (by simpa [nodesOfEach] using h)).imp fun i s vs hs => ?_
      have hsingle := hitems (by simp) (.cons hs (.nil (i + vs.length)))
      simpa [Text.joined] using hsingle
  | some es =>
      cases es with
      | nil => exact .throw _
      | cons e es =>
          rw [hprojection] at h
          exact (emitEach_isItem (e :: es) h).map fun _ ss _ hss => hitems (by simp) hss

theorem Query.isTable_of_keepsWords (hq : ∀ node ∈ q.selectNodes, node.KeepsWords) :
    ∀ k s, sourceAt (q.namedSources .select) k = .ok s → s.IsTable := by
  intro k s hs body hbody
  have hmem : s.source ∈ q.sources := List.mem_of_getElem? (sourceAt_select hs).1
  have hnodes : ∀ node ∈ s.source.nodes, node ∈ q.selectNodes := by
    intro node hnode
    simp only [Query.selectNodes, Query.clauseNodes, List.mem_append]
    rcases List.mem_cons.mp hmem with hsource | hjoined
    · rw [hsource] at hnode
      tauto
    · obtain ⟨join, hjoin, heq⟩ := List.mem_map.mp hjoined
      rw [← heq] at hnode
      have hall : node ∈ q.joins.flatMap Join.nodes :=
        List.mem_flatMap.mpr ⟨join, hjoin, Join.nodes_source hnode⟩
      tauto
  rw [hbody] at hnodes
  exact body.not_keepsWords fun node hnode => hq node (hnodes node hnode)

theorem concat_isClause {part : Emit Text} {parts : List (Emit Text)} {n m : Nat}
    {keywords keywords' : List Text} (hpart : part.Ensures fun _ s _ => IsClause s n keywords)
    (hparts : (Emit.concat parts).Ensures fun _ s _ => IsClause s m keywords') :
    (Emit.concat (part :: parts)).Ensures fun _ s _ => IsClause s (n + m) (keywords ++ keywords') :=
  hpart.map₂ hparts fun _ _ _ _ _ hs ht => hs.append ht

end Clauses

/-- The keywords of the clauses after the source. -/
def Query.laterClauses (q : Query) : List Text :=
  wordIf (!q.filters.isEmpty) "WHERE" ++ (wordIf (!q.groups.isEmpty) "GROUP" ++
    (wordIf (!q.groupFilters.isEmpty) "HAVING" ++ (wordIf (!q.ordering.isEmpty) "ORDER" ++
      (wordIf q.limit.isSome "LIMIT" ++ wordIf q.offset.isSome "OFFSET"))))

/-- What is read off the text of a SELECT. -/
structure Query.HasForm (q : Query) (sql : Text) : Prop where
  projection : filledItems false (projectionWords sql) =
    (q.projection.getD [.row 0]).all fun e => !e.isEmptyRow q.sources
  clauses : ∃ distinct, clauseWords sql =
    "SELECT".toList :: (wordIf distinct "DISTINCT" ++ "FROM".toList :: q.laterClauses)
  calls : emptyCalls (visible none sql) = q.selectNodes.countP (Node.isEmptyCall q.sources)

theorem distinctText_eq_ok {distinct : Option Distinct} {lead : Text}
    (h : distinctText distinct = .ok lead) :
    ∃ on : Bool, lead = if on then "DISTINCT ".toList else [] := by
  unfold distinctText at h
  split at h
  · cases h
    exact ⟨false, rfl⟩
  · rename_i on
    cases h
    exact ⟨on, rfl⟩
  · cases h
    exact ⟨false, rfl⟩
  · cases h

/-- The words of a SELECT from those of its parts. -/
theorem framed_select (on : Bool) {projection clauses : Text} {n m : Nat}
    (hprojection : Phrase projection n) {ws : List Text}
    (hclauses : Frames clauses ("FROM".toList :: ws) m) :
    Framed ("SELECT ".toList ++ (if on then "DISTINCT ".toList else []) ++ (projection ++ clauses))
      ("SELECT".toList :: (wordIf on "DISTINCT" ++ (outerWords projection ++
        "FROM".toList :: ws))) (n + m) := by
  have hselect : Framed "SELECT".toList ["SELECT".toList] 0 := .word (by decide) (by decide)
  have hdistinct : Framed "DISTINCT".toList ["DISTINCT".toList] 0 := .word (by decide) (by decide)
  have hall := hclauses.after hprojection.framed
  rw [List.append_assoc]
  cases on with
  | false =>
      have hframed := (Frames.blank hall).after hselect
      rwa [Nat.zero_add] at hframed
  | true =>
      have hframed := (Frames.blank ((Frames.blank hall).after hdistinct)).after hselect
      rwa [Nat.zero_add, Nat.zero_add] at hframed

theorem projectionWords_eq {sql : Text} {on : Bool} {projection : Text} {n : Nat}
    (hprojection : Phrase projection n) {ws : List Text}
    (h : outerWords sql = "SELECT".toList :: (wordIf on "DISTINCT" ++ (outerWords projection ++
      "FROM".toList :: ws))) : projectionWords sql = outerWords projection := by
  have hfrom : ∀ w ∈ outerWords projection, w ≠ "FROM".toList := fun w hw heq =>
    hprojection.no_keyword w hw (by rw [heq]; decide)
  have htake : (outerWords projection ++ "FROM".toList :: ws).takeWhile (· ≠ "FROM".toList) =
      outerWords projection := by
    rw [List.takeWhile_append_of_pos (by simpa using hfrom)]
    simp
  have hhead : (outerWords projection ++ "FROM".toList :: ws).head? ≠ some "DISTINCT".toList :=
    hprojection.head?_append_ne (by simp)
  unfold projectionWords
  dsimp only
  rw [h, List.tail_cons]
  cases on with
  | false =>
      have hnone : wordIf false "DISTINCT" = [] := rfl
      rw [hnone, List.nil_append, if_neg hhead]
      exact htake
  | true => exact htake

/-- The clauses after the source. -/
theorem Query.laterClauses_isClause {q : Query}
    (htables : ∀ k s, sourceAt (q.namedSources .select) k = .ok s → s.IsTable)
    (hq : ∀ node ∈ q.clauseNodes, node.KeepsWords) :
    (Emit.concat ((q.selectClauses (q.namedSources .select)).drop 2)).Ensures fun _ s _ =>
      IsClause s (q.clauseNodes.countP (Node.isEmptyCall q.sources)) q.laterClauses := by
  simp only [Query.clauseNodes, List.forall_mem_append] at hq
  obtain ⟨⟨⟨⟨⟨⟨⟨hsource, hjoins⟩, hfilters⟩, hgroups⟩, hgroupFilters⟩, hordering⟩, hlimit⟩,
    hoffset⟩ := hq
  have hnil : (Emit.concat []).Ensures fun _ s _ => IsClause s 0 [] := .pure fun _ => .nil
  have hoffsets := concat_isClause
    (optionalClause_isClause (q := q) "OFFSET" (by decide) (by decide) hoffset) hnil
  have hlimits := concat_isClause
    (optionalClause_isClause (q := q) "LIMIT" (by decide) (by decide) hlimit) hoffsets
  have horderings := concat_isClause (orderClause_isClause (q := q) hordering) hlimits
  have hhavings := concat_isClause
    (filterClause_isClause (q := q) "HAVING" (by decide) (by decide) hgroupFilters) horderings
  have hgroupings := concat_isClause
    (listClause_isClause (q := q) "GROUP BY" "GROUP" (by decide) (by decide) hgroups) hhavings
  have hwheres := concat_isClause
    (filterClause_isClause (q := q) "WHERE" (by decide) (by decide) hfilters) hgroupings
  have hall := concat_isClause (emitJoins_isClause htables 1 hjoins) hwheres
  refine hall.imp fun _ s _ hs => ?_
  simpa [Query.clauseNodes, Query.laterClauses, Source.nodes_eq_nil hsource, Nat.add_assoc] using hs

theorem Query.emitSelect_hasForm {q : Query} (hq : ∀ node ∈ q.selectNodes, node.KeepsWords) :
    q.emitSelect.Ensures fun _ s _ => q.HasForm s := by
  have htables := Query.isTable_of_keepsWords hq
  rw [Query.selectNodes, List.forall_mem_append] at hq
  have hrest : (Emit.concat (q.selectClauses (q.namedSources .select)).tail).Ensures fun _ s _ =>
      ∃ ws, Frames s ("FROM".toList :: ws) (q.clauseNodes.countP (Node.isEmptyCall q.sources)) ∧
        ws.filter (· ∈ clauseKeywords) = q.laterClauses := by
    refine (sourceClause_frames htables).map₂ (Query.laterClauses_isClause htables hq.2)
      fun _ s _ t _ hs ht => ?_
    obtain ⟨ws, hws, hnone⟩ := hs
    obtain ⟨us, hus, hkeywords⟩ := ht
    have hframes := hws.append hus
    rw [Nat.zero_add] at hframes
    exact ⟨ws ++ us, hframes, by rw [List.filter_append, hnone, hkeywords, List.nil_append]⟩
  have hclauses : (Emit.concat (q.selectClauses (q.namedSources .select))).Ensures fun _ s _ =>
      ∀ on : Bool,
        q.HasForm ("SELECT ".toList ++ (if on then "DISTINCT ".toList else []) ++ s) := by
    refine (projectionClause_phrase hq.1).map₂ hrest fun _ s _ t _ hs ht on => ?_
    obtain ⟨hphrase, hfilled⟩ := hs
    obtain ⟨ws, hws, hkeywords⟩ := ht
    have hframed := framed_select on hphrase hws
    refine ⟨?_, ⟨on, ?_⟩, ?_⟩
    · rw [projectionWords_eq hphrase hframed.words_eq, hfilled]
    · have hdistinct :
          (wordIf on "DISTINCT").filter (· ∈ clauseKeywords) = wordIf on "DISTINCT" := by
        cases on <;> decide
      rw [clauseWords, hframed.words_eq, List.filter_cons_of_pos (by decide), List.filter_append,
        List.filter_append, List.filter_cons_of_pos (by decide), hdistinct, hphrase.filter_eq_nil,
        hkeywords, List.nil_append]
    · rw [hframed.calls_eq, Query.selectNodes, List.countP_append]
  refine .refuseIf_bind fun _ => .ofExcept_bind fun lead hlead => ?_
  obtain ⟨on, rfl⟩ := distinctText_eq_ok hlead
  exact hclauses.map fun _ s _ hs => hs on

theorem wordIf_sublist (present : Bool) (word : String) :
    (wordIf present word).Sublist [word.toList] := by
  cases present with
  | false => exact List.nil_sublist _
  | true => exact List.Sublist.refl _

/-- Of the clauses, only the last two can be `LIMIT` and `OFFSET`. -/
theorem isChain_limit_offset {words : List Text} (hne : words ≠ [])
    (hlimit : "LIMIT".toList ∉ words) (hoffset : "OFFSET".toList ∉ words) (limit offset : Bool) :
    List.IsChain (fun before word => word = "OFFSET".toList → before = "LIMIT".toList)
        (words ++ (wordIf limit "LIMIT" ++ wordIf offset "OFFSET")) ↔ (offset → limit) := by
  have hfree {ws : List Text} (hws : "OFFSET".toList ∉ ws) :
      List.IsChain (fun before word => word = "OFFSET".toList → before = "LIMIT".toList) ws := by
    refine List.Pairwise.isChain (List.pairwise_of_forall_mem_list fun a _ b hb heq => ?_)
    rw [heq] at hb
    exact absurd hb hws
  have hfront : "OFFSET".toList ∉ words ++ wordIf limit "LIMIT" := by
    rw [List.mem_append, not_or]
    exact ⟨hoffset, fun hmem => absurd ((wordIf_sublist _ _).subset hmem) (by decide)⟩
  rw [← List.append_assoc]
  cases offset with
  | false =>
      refine iff_of_true ?_ (by simp)
      have hnone : wordIf false "OFFSET" = [] := rfl
      rw [hnone, List.append_nil]
      exact hfree hfront
  | true =>
      have hlast : wordIf true "OFFSET" = ["OFFSET".toList] := rfl
      rw [hlast, List.isChain_append]
      cases limit with
      | false =>
          refine iff_of_false (fun h => ?_) (by simp)
          have hmem := List.getLast_mem hne
          have hend : (words ++ wordIf false "LIMIT").getLast? = some (words.getLast hne) := by
            simp [wordIf, List.getLast?_eq_some_getLast hne]
          have heq := h.2.2 (words.getLast hne) hend "OFFSET".toList rfl rfl
          rw [heq] at hmem
          exact hlimit hmem
      | true =>
          refine iff_of_true ⟨hfree hfront, by simp, fun a ha b _ _ => ?_⟩ (by simp)
          simpa [wordIf, eq_comm] using ha

/-- The clauses of a SELECT before a limit. -/
def Query.firstClauses (q : Query) (distinct : Bool) : List Text :=
  "SELECT".toList :: (wordIf distinct "DISTINCT" ++ "FROM".toList ::
    (wordIf (!q.filters.isEmpty) "WHERE" ++ (wordIf (!q.groups.isEmpty) "GROUP" ++
      (wordIf (!q.groupFilters.isEmpty) "HAVING" ++ wordIf (!q.ordering.isEmpty) "ORDER"))))

theorem Query.firstClauses_sublist (q : Query) (distinct : Bool) :
    (q.firstClauses distinct).Sublist ["SELECT".toList, "DISTINCT".toList, "FROM".toList,
      "WHERE".toList, "GROUP".toList, "HAVING".toList, "ORDER".toList] := by
  have hlater := (wordIf_sublist (!q.groupFilters.isEmpty) "HAVING").append
    (wordIf_sublist (!q.ordering.isEmpty) "ORDER")
  have hclauses := (wordIf_sublist (!q.filters.isEmpty) "WHERE").append
    ((wordIf_sublist (!q.groups.isEmpty) "GROUP").append hlater)
  exact .cons_cons _ ((wordIf_sublist distinct "DISTINCT").append (.cons_cons _ hclauses))

/-- A SELECT without fragments, in which the raw names of functions and types stay whole,
has the form that SQLite reads under three conditions. No item of the projection is the
row of a table without fields; an offset comes with a limit; and every distinct call has
an argument that is not such a row. -/
theorem compileSelect_form_iff {q : Query} {c : Compiled}
    (hq : ∀ node ∈ q.selectNodes, node.KeepsWords) (hc : q.compileSelect = .ok c) :
    (filledItems false (projectionWords c.sql.toList) ↔
      ∀ e ∈ q.projection.getD [.row 0], e.isEmptyRow q.sources = false) ∧
    (OffsetFollowsLimit c.sql.toList ↔ (q.offset.isSome → q.limit.isSome)) ∧
    emptyCalls (visible none c.sql.toList) =
      q.selectNodes.countP (Node.isEmptyCall q.sources) := by
  have hform : q.HasForm c.sql.toList := (Query.emitSelect_hasForm hq).of_compile hc
  obtain ⟨on, hclauses⟩ := hform.clauses
  refine ⟨?_, ?_, hform.calls⟩
  · rw [hform.projection, List.all_eq_true]
    simp
  · have hwords : clauseWords c.sql.toList = q.firstClauses on ++
        (wordIf q.limit.isSome "LIMIT" ++ wordIf q.offset.isSome "OFFSET") := by
      rw [hclauses]
      simp [Query.firstClauses, Query.laterClauses]
    have hlimit : "LIMIT".toList ∉ q.firstClauses on := fun hmem =>
      absurd ((q.firstClauses_sublist on).subset hmem) (by decide)
    have hoffset : "OFFSET".toList ∉ q.firstClauses on := fun hmem =>
      absurd ((q.firstClauses_sublist on).subset hmem) (by decide)
    rw [OffsetFollowsLimit, hwords]
    exact isChain_limit_offset (List.cons_ne_nil _ _) hlimit hoffset _ _

/-- A query with words of SQL in its names, and with every clause. -/
def Query.ofWordyNames : Query where
  source := .table "a FROM b" (some ["x, ", "LIMIT"])
  joins := [.conditional .left (.table "c" none) (.eq (.field 0 "OFFSET") (.field 1 "id"))]
  projection := some [.row 0, .call "\"f, (\"" [.row 0] true,
    .cast (.literal (.string ", ")) (.custom "varchar(9)")]
  distinct := some (.flag true)
  filters := [.inValues (.field 1 "(DISTINCT )") [.int 7, .int 8]]
  groups := [.field 0 "x, "]
  groupFilters := [.gt (.call "sum" [.field 0 "y"] true) (.param (.int 9))]
  ordering := [⟨.field 0 "LIMIT", .descending⟩]
  limit := some (.param (.int 10))
  offset := some (.param (.int 5))

theorem compileSelect_form_in_sample :
    ∃ c, Query.ofWordyNames.compileSelect = .ok c ∧
      filledItems false (projectionWords c.sql.toList) ∧ OffsetFollowsLimit c.sql.toList ∧
      emptyCalls (visible none c.sql.toList) = 0 := by
  have hword : Framed "9".toList ["9".toList] 0 := .word (by decide) (by decide)
  have hvarchar : IsOneWord "VARCHAR".toList := ⟨rfl, by decide⟩
  have htype : Framed (Text.upperCase "varchar(9)".toList) ["VARCHAR()".toList] 0 :=
    hword.call hvarchar
  have hraw : IsOneWord "\"f, (\"".toList ∧
      (∃ ws, Framed (Text.upperCase "varchar(9)".toList) ws 0) ∧ IsOneWord "sum".toList :=
    ⟨⟨rfl, by decide⟩, ⟨_, htype⟩, ⟨rfl, by decide⟩⟩
  have hq : ∀ node ∈ Query.ofWordyNames.selectNodes, node.KeepsWords := by
    simpa [Query.selectNodes, Query.clauseNodes, Query.ofWordyNames, Source.nodes, Join.nodes,
      OrderTerm.nodes, nodesOfEach, Expr.nodes, InList.nodes, Expr.eq, Expr.gt, Expr.inValues,
      Node.KeepsWords] using hraw
  obtain ⟨c, hc⟩ : ∃ c, Query.ofWordyNames.compileSelect = .ok c := ⟨_, rfl⟩
  obtain ⟨hitems, hoffset, hcalls⟩ := compileSelect_form_iff hq hc
  exact ⟨c, hc, hitems.mpr (by decide), hoffset.mpr fun _ => rfl, hcalls.trans (by decide)⟩

/-- None of the three conditions is checked, nor is the name of a function. -/
theorem malformed_selects_compile :
    (∃ c, (Query.ofSource (.table "t" (some []))).compileSelect = .ok c ∧
      c.sql = "SELECT  FROM \"t\" AS t0" ∧
      filledItems false (projectionWords c.sql.toList) = false) ∧
    (∃ c, (((Query.ofTable "t").select [.literal (.int 1)]).startAt
        (.literal (.int 5))).compileSelect = .ok c ∧
      c.sql = "SELECT 1 FROM \"t\" AS t0 OFFSET 5" ∧ ¬ OffsetFollowsLimit c.sql.toList) ∧
    (∃ c, ((Query.ofTable "t").select [.call "count" [] true]).compileSelect = .ok c ∧
      c.sql = "SELECT count(DISTINCT *) FROM \"t\" AS t0" ∧
      emptyCalls (visible none c.sql.toList) = 1) ∧
    ∃ c, ((Query.ofTable "t").select [.function ", f" [.literal (.int 1)]]).compileSelect = .ok c ∧
      c.sql = "SELECT , f(1) FROM \"t\" AS t0" ∧
      filledItems false (projectionWords c.sql.toList) = false := by
  refine ⟨⟨_, rfl, rfl, ?_⟩, ⟨_, rfl, rfl, ?_⟩, ⟨_, rfl, rfl, ?_⟩, ⟨_, rfl, rfl, ?_⟩⟩
  · decide
  · unfold OffsetFollowsLimit
    decide
  · decide
  · decide

end LiteSql
