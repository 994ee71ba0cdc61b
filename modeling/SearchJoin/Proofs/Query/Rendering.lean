import SearchJoin.Proofs.Json.Equality
import SearchJoin.Query.Request

/-!
# The rendering of requests

A query is rendered as an object with one field, whose name says what kind of query it is. Clause lists that are
empty and bounds that are not set are left out, and names of fields become names in the rendering. Nothing is
lost by this: requests that are rendered alike are alike.

Main statement: `Request.body_eq_iff`.
-/

namespace SearchJoin

variable {rel : Json → Json → Prop}

/-! ## Queries that are alike -/

/-- The bounds are set on both sides or on none, to values that are related. -/
structure Bounds.Alike (rel : Json → Json → Prop) (a b : Bounds) : Prop where
  gt : Option.Rel rel (a.gt.map Value.json) (b.gt.map Value.json)
  ge : Option.Rel rel (a.ge.map Value.json) (b.ge.map Value.json)
  lt : Option.Rel rel (a.lt.map Value.json) (b.lt.map Value.json)
  le : Option.Rel rel (a.le.map Value.json) (b.le.map Value.json)

namespace Query

mutual

/-- The queries are built alike, of the same texts and of values that are related. -/
def Alike (rel : Json → Json → Prop) : Query → Query → Prop
  | .bool must should mustNot filter, .bool must' should' mustNot' filter' =>
    AllAlike rel must must' ∧ AllAlike rel should should' ∧ AllAlike rel mustNot mustNot' ∧
      AllAlike rel filter filter'
  | .term field value, .term field' value' => field = field' ∧ rel value.json value'.json
  | .terms field values, .terms field' values' =>
    field = field' ∧ List.Forall₂ (fun value value' => rel value.json value'.json) values values'
  | .range field bounds, .range field' bounds' => field = field' ∧ bounds.Alike rel bounds'
  | .wildcard field pattern, .wildcard field' pattern' => field = field' ∧ pattern = pattern'
  | .exists field, .exists field' => field = field'
  | .geoShape field shape relation, .geoShape field' shape' relation' =>
    field = field' ∧ shape = shape' ∧ relation = relation'
  | .nested path query, .nested path' query' => path = path' ∧ Alike rel query query'
  | .hasChild childType query, .hasChild childType' query' => childType = childType' ∧ Alike rel query query'
  | .matchAll, .matchAll => True
  | _, _ => False

/-- The lists have the same length, and their queries are alike one by one. -/
def AllAlike (rel : Json → Json → Prop) : List Query → List Query → Prop
  | [], [] => True
  | query :: queries, query' :: queries' => Alike rel query query' ∧ AllAlike rel queries queries'
  | _, _ => False

end

/-- The name that says what kind of query it is. -/
def kind : Query → String
  | .bool .. => "bool"
  | .term .. => "term"
  | .terms .. => "terms"
  | .range .. => "range"
  | .wildcard .. => "wildcard"
  | .exists .. => "exists"
  | .geoShape .. => "geo_shape"
  | .nested .. => "nested"
  | .hasChild .. => "has_child"
  | .matchAll => "match_all"

theorem toJson_eq_kind (query : Query) : ∃ content, query.toJson = .obj [(query.kind, content)] := by
  cases query <;> exact ⟨_, by rw [toJson]; rfl⟩

end Query

section Rendering

variable (heq : Json.IsEquality rel)
include heq

theorem Query.kind_eq_of_rel {q q' : Query} (h : rel q.toJson q'.toJson) : q.kind = q'.kind := by
  obtain ⟨content, hq⟩ := q.toJson_eq_kind
  obtain ⟨content', hq'⟩ := q'.toJson_eq_kind
  rw [hq, hq', heq.obj_singleton] at h
  exact h.1

/-- Queries of two kinds are never rendered alike. -/
theorem Query.rel_toJson_iff_of_kind_ne {q q' : Query} (h : q.kind ≠ q'.kind) : rel q.toJson q'.toJson ↔ False :=
  iff_false_intro fun hrel => h (Query.kind_eq_of_rel heq hrel)

theorem Bounds.rel_toJson_iff {a b : Bounds} : rel a.toJson b.toJson ↔ a.Alike rel b := by
  unfold Bounds.toJson
  rw [heq.ofPresent_iff (by rfl) (by simp)]
  simp only [List.map_cons, List.map_nil, List.forall₂_cons, List.Forall₂.nil, and_true]
  exact ⟨fun ⟨hgt, hge, hlt, hle⟩ => ⟨hgt, hge, hlt, hle⟩, fun ⟨hgt, hge, hlt, hle⟩ => ⟨hgt, hge, hlt, hle⟩⟩

theorem Query.rel_clauseField_iff {name : String} {xs ys : List Json} :
    Option.Rel rel (clauseField name xs).2 (clauseField name ys).2 ↔ List.Forall₂ rel xs ys :=
  Json.rel_nonempty_iff heq.arr

end Rendering

mutual

theorem Query.rel_toJson_iff (heq : Json.IsEquality rel) : (q q' : Query) → (rel q.toJson q'.toJson ↔ q.Alike rel q')
  | .bool must should mustNot filter, q' => by
    cases q' with
    | bool must' should' mustNot' filter' =>
      have hclauses : rel (Query.bool must should mustNot filter).toJson
          (Query.bool must' should' mustNot' filter').toJson ↔
          AllAlike rel filter filter' ∧ AllAlike rel must must' ∧ AllAlike rel mustNot mustNot' ∧
            AllAlike rel should should' := by
        unfold toJson
        rw [heq.obj_singleton, heq.ofPresent_iff (by rfl) (by simp [clauseField])]
        simp only [List.map_cons, List.map_nil, List.forall₂_cons, List.Forall₂.nil, and_true, true_and]
        rw [rel_clauseField_iff heq, rel_clauseField_iff heq, rel_clauseField_iff heq, rel_clauseField_iff heq,
          Query.rel_listToJson_iff heq filter filter', Query.rel_listToJson_iff heq must must',
          Query.rel_listToJson_iff heq mustNot mustNot', Query.rel_listToJson_iff heq should should']
      rw [hclauses]
      exact ⟨fun ⟨hfilter, hmust, hnot, hshould⟩ => ⟨hmust, hshould, hnot, hfilter⟩,
        fun ⟨hmust, hshould, hnot, hfilter⟩ => ⟨hfilter, hmust, hnot, hshould⟩⟩
    | _ => exact Query.rel_toJson_iff_of_kind_ne heq (by simp [kind])
  | .term field value, q' => by
    cases q' with
    | term field' value' =>
      rw [toJson, toJson, heq.obj_singleton, heq.obj_singleton, Alike]
      exact and_iff_right rfl
    | _ => exact Query.rel_toJson_iff_of_kind_ne heq (by simp [kind])
  | .terms field values, q' => by
    cases q' with
    | terms field' values' =>
      rw [toJson, toJson, heq.obj_singleton, heq.obj_singleton, heq.arr_map, Alike]
      exact and_iff_right rfl
    | _ => exact Query.rel_toJson_iff_of_kind_ne heq (by simp [kind])
  | .range field bounds, q' => by
    cases q' with
    | range field' bounds' =>
      rw [toJson, toJson, heq.obj_singleton, heq.obj_singleton, Bounds.rel_toJson_iff heq, Alike]
      exact and_iff_right rfl
    | _ => exact Query.rel_toJson_iff_of_kind_ne heq (by simp [kind])
  | .wildcard field pattern, q' => by
    cases q' with
    | wildcard field' pattern' =>
      rw [toJson, toJson, heq.obj_singleton, heq.obj_singleton, heq.str, Alike]
      exact and_iff_right rfl
    | _ => exact Query.rel_toJson_iff_of_kind_ne heq (by simp [kind])
  | .exists field, q' => by
    cases q' with
    | «exists» field' =>
      rw [toJson, toJson, heq.obj_singleton, heq.obj_singleton, heq.str, Alike]
      simp
    | _ => exact Query.rel_toJson_iff_of_kind_ne heq (by simp [kind])
  | .geoShape field shape relation, q' => by
    cases q' with
    | geoShape field' shape' relation' =>
      rw [toJson, toJson, heq.obj_singleton, heq.obj_singleton, heq.obj_pair, heq.str, heq.str, Alike]
      simp [and_comm]
    | _ => exact Query.rel_toJson_iff_of_kind_ne heq (by simp [kind])
  | .nested path query, q' => by
    cases q' with
    | nested path' query' =>
      rw [toJson, toJson, heq.obj_singleton, heq.obj_pair, heq.str, Query.rel_toJson_iff heq query query', Alike]
      simp
    | _ => exact Query.rel_toJson_iff_of_kind_ne heq (by simp [kind])
  | .hasChild childType query, q' => by
    cases q' with
    | hasChild childType' query' =>
      rw [toJson, toJson, heq.obj_singleton, heq.obj_pair, heq.str, Query.rel_toJson_iff heq query query', Alike]
      simp [and_comm]
    | _ => exact Query.rel_toJson_iff_of_kind_ne heq (by simp [kind])
  | .matchAll, q' => by
    cases q' with
    | matchAll =>
      rw [toJson, heq.obj_singleton, heq.obj]
      exact iff_of_true ⟨rfl, .nil⟩ trivial
    | _ => exact Query.rel_toJson_iff_of_kind_ne heq (by simp [kind])

theorem Query.rel_listToJson_iff (heq : Json.IsEquality rel) : (qs qs' : List Query) →
    (List.Forall₂ rel (listToJson qs) (listToJson qs') ↔ AllAlike rel qs qs')
  | [], [] => iff_of_true .nil trivial
  | [], _ :: _ => iff_of_false nofun id
  | _ :: _, [] => iff_of_false nofun id
  | q :: qs, q' :: qs' => by
    rw [listToJson, listToJson, List.forall₂_cons, Query.rel_toJson_iff heq q q', Query.rel_listToJson_iff heq qs qs']
    rfl

end

namespace Query

/-! ## Equal queries -/

theorem rel_map_json_iff {a b : Option Value} :
    Option.Rel (· = ·) (a.map Value.json) (b.map Value.json) ↔ a = b := by
  cases a <;> cases b <;> simp [← Value.ext_iff]

theorem alike_eq_bounds_iff {a b : Bounds} : a.Alike (· = ·) b ↔ a = b := by
  constructor
  · rintro ⟨hgt, hge, hlt, hle⟩
    rw [rel_map_json_iff] at hgt hge hlt hle
    cases a
    cases b
    congr
  · rintro rfl
    exact ⟨rel_map_json_iff.2 rfl, rel_map_json_iff.2 rfl, rel_map_json_iff.2 rfl, rel_map_json_iff.2 rfl⟩

mutual

theorem alike_eq_iff : (q q' : Query) → (q.Alike (· = ·) q' ↔ q = q')
  | .bool must should mustNot filter, q' => by
    cases q' with
    | bool must' should' mustNot' filter' =>
      rw [Alike, allAlike_eq_iff, allAlike_eq_iff, allAlike_eq_iff, allAlike_eq_iff, Query.bool.injEq]
    | _ => exact iff_of_false id nofun
  | .term field value, q' => by
    cases q' with
    | term field' value' => simp [Alike, Value.ext_iff]
    | _ => exact iff_of_false id nofun
  | .terms field values, q' => by
    cases q' with
    | terms field' values' => simp [Alike, ← Value.ext_iff]
    | _ => exact iff_of_false id nofun
  | .range field bounds, q' => by
    cases q' with
    | range field' bounds' => simp [Alike, alike_eq_bounds_iff]
    | _ => exact iff_of_false id nofun
  | .wildcard field pattern, q' => by
    cases q' with
    | wildcard field' pattern' => simp [Alike]
    | _ => exact iff_of_false id nofun
  | .exists field, q' => by
    cases q' with
    | «exists» field' => simp [Alike]
    | _ => exact iff_of_false id nofun
  | .geoShape field shape relation, q' => by
    cases q' with
    | geoShape field' shape' relation' => simp [Alike]
    | _ => exact iff_of_false id nofun
  | .nested path query, q' => by
    cases q' with
    | nested path' query' => simp [Alike, alike_eq_iff query query']
    | _ => exact iff_of_false id nofun
  | .hasChild childType query, q' => by
    cases q' with
    | hasChild childType' query' => simp [Alike, alike_eq_iff query query']
    | _ => exact iff_of_false id nofun
  | .matchAll, q' => by
    cases q' with
    | matchAll => exact iff_of_true trivial rfl
    | _ => exact iff_of_false id nofun

theorem allAlike_eq_iff : (qs qs' : List Query) → (AllAlike (· = ·) qs qs' ↔ qs = qs')
  | [], [] => iff_of_true trivial rfl
  | [], _ :: _ => iff_of_false id nofun
  | _ :: _, [] => iff_of_false id nofun
  | q :: qs, q' :: qs' => by
    rw [AllAlike, alike_eq_iff q q', allAlike_eq_iff qs qs', List.cons.injEq]

end

end Query

/-! ## Requests -/

namespace Request

/-- The requests have queries that are alike, and ask for the same hits, fields and order. -/
structure Alike (rel : Json → Json → Prop) (a b : Request) : Prop where
  query : a.query.Alike rel b.query
  from? : a.from? = b.from?
  size : a.size = b.size
  source : a.source = b.source
  sort : a.sort = b.sort

section Rendering

variable (heq : Json.IsEquality rel)
include heq

theorem rel_ofUInt64_iff {a b : Option UInt64} :
    Option.Rel rel (a.map Json.ofUInt64) (b.map Json.ofUInt64) ↔ a = b := by
  cases a <;> cases b <;> simp [heq.ofUInt64]

theorem rel_order_iff {a b : OrderBy} :
    rel (.obj [(a.field, .obj [("order", .str a.order.name)])])
      (.obj [(b.field, .obj [("order", .str b.order.name)])]) ↔ a = b := by
  rw [heq.obj_singleton, heq.obj_singleton, heq.str]
  obtain ⟨field, order⟩ := a
  obtain ⟨field', order'⟩ := b
  cases order <;> cases order' <;> simp [SortOrder.name]

theorem rel_body_iff {a b : Request} : rel a.body b.body ↔ a.Alike rel b := by
  have hsource : rel (.obj [("includes", .ofStrings a.source)]) (.obj [("includes", .ofStrings b.source)]) ↔
      List.Forall₂ (· = ·) a.source b.source := by
    rw [heq.obj_singleton, heq.ofStrings, List.forall₂_eq_eq_eq]
    exact and_iff_right rfl
  have hsort : rel (.arr (a.sort.map fun order => .obj [(order.field, .obj [("order", .str order.order.name)])]))
      (.arr (b.sort.map fun order => .obj [(order.field, .obj [("order", .str order.order.name)])])) ↔
      List.Forall₂ (· = ·) a.sort b.sort := by
    rw [heq.arr_map]
    simp only [rel_order_iff heq]
  unfold body
  rw [heq.ofPresent_iff (by rfl) (by simp)]
  simp only [List.map_cons, List.map_nil, List.forall₂_cons, List.Forall₂.nil, and_true]
  rw [Json.rel_nonempty_iff hsource, Json.rel_nonempty_iff hsort, rel_ofUInt64_iff heq, rel_ofUInt64_iff heq,
    Option.rel_some_some, Query.rel_toJson_iff heq, List.forall₂_eq_eq_eq, List.forall₂_eq_eq_eq]
  exact ⟨fun ⟨hsource, hfrom, hquery, hsize, hsort⟩ => ⟨hquery, hfrom, hsize, hsource, hsort⟩,
    fun ⟨hquery, hfrom, hsize, hsource, hsort⟩ => ⟨hsource, hfrom, hquery, hsize, hsort⟩⟩

end Rendering

/-- Bodies are equal exactly when the requests agree in all but the index, and so it is for the rendering of
queries. Where values count as equal the requests agree up to this equality. -/
theorem body_eq_iff (a b : Request) :
    (a.body = b.body ↔
      a.query = b.query ∧ a.from? = b.from? ∧ a.size = b.size ∧ a.source = b.source ∧ a.sort = b.sort) ∧
      (a.body.same b.body = true ↔ a.Alike (fun x y => x.same y = true) b) ∧
      (a.query.toJson = b.query.toJson ↔ a.query = b.query) := by
  refine ⟨?_, rel_body_iff Json.isEquality_same, ?_⟩
  · rw [rel_body_iff Json.isEquality_eq]
    constructor
    · rintro ⟨hquery, hfrom, hsize, hsource, hsort⟩
      exact ⟨(Query.alike_eq_iff _ _).1 hquery, hfrom, hsize, hsource, hsort⟩
    · rintro ⟨hquery, hfrom, hsize, hsource, hsort⟩
      exact ⟨(Query.alike_eq_iff _ _).2 hquery, hfrom, hsize, hsource, hsort⟩
  · rw [Query.rel_toJson_iff Json.isEquality_eq, Query.alike_eq_iff]

end Request

end SearchJoin
