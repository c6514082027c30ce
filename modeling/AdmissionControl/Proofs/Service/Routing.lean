import AdmissionControl.Proofs.Text
import AdmissionControl.Service.Application

/-!
# The routes of the service

The routes of the service are told apart by how their paths begin, and no page begins as one of them
does.  So whatever routes a host adds, a request that matches a route of the service is led to it.

* `prefix_of_match` — a path begins with the literal that its template begins with.
* `find_of_first`, `find_of_earlier` — the first route that matches is found.
* `find_own` — a request is led to the route of the service that it matches.
-/

namespace AdmissionControl.Service

/-- A path begins with the literal that its template begins with. -/
theorem prefix_of_match {text path : Text} {parts : List Part} {parameters : Parameters}
    (h : Template.match? (.literal text :: parts) path = some parameters) : text <+: path := by
  rw [Template.match?] at h
  split at h
  · next tail htail => exact ⟨tail, (Text.dropStart?_eq_some_iff.mp htail).symm⟩
  · cases h

/-- No path begins with two literals of which neither begins the other. -/
theorem match_eq_none_of_diverging {text other path : Text} {parts parts' : List Part}
    {parameters : Parameters} (h : Template.match? (.literal text :: parts) path = some parameters)
    (hdiverging : ¬ text <+: other ∧ ¬ other <+: text) :
    Template.match? (.literal other :: parts') path = none := by
  cases hother : Template.match? (.literal other :: parts') path with
  | none => rfl
  | some parameters' =>
    rcases List.prefix_or_prefix_of_prefix (prefix_of_match h) (prefix_of_match hother) with h | h
    · exact absurd h hdiverging.1
    · exact absurd h hdiverging.2

/-- A literal alone matches itself, and itself before one line end. -/
theorem length_of_match_literal {text path : Text} {parameters : Parameters}
    (h : Template.match? [.literal text] path = some parameters) :
    path.length ≤ text.length + 1 := by
  rw [Template.match?] at h
  split at h
  · next tail htail =>
    have hend : (dropFinalBreak tail).isEmpty = true := by
      rw [Template.match?] at h
      split at h
      · assumption
      · cases h
    rw [Text.dropStart?_eq_some_iff.mp htail, List.length_append]
    rw [dropFinalBreak] at hend
    split at hend
    · have hlength := congrArg List.length (List.isEmpty_iff.mp hend)
      rw [List.length_dropLast, List.length_nil] at hlength
      omega
    · rw [List.isEmpty_iff.mp hend]
      simp
  · cases h

/-- The first route that matches is found. -/
theorem find_of_first {before after : List Route} {route : Route} {method path : Text}
    {parameters : Parameters} (hbefore : ∀ r ∈ before, r.template.match? path = none)
    (hmatch : route.template.match? path = some parameters) (hmethod : method ∈ route.methods) :
    find (before ++ route :: after) method path = .full route parameters := by
  have hhits : before.filterMap (fun r => (r.template.match? path).map (r, ·)) = [] :=
    List.filterMap_eq_nil_iff.mpr fun r hr => by rw [hbefore r hr]; rfl
  rw [find, List.filterMap_append, hhits, List.nil_append,
    List.filterMap_cons_some (by rw [hmatch]; rfl)]
  simp [hmethod]

/-- A page does not begin as a path does that a route of the service matches. -/
theorem page_match_eq_none {text path : Text} {parts : List Part} {parameters : Parameters}
    (h : Template.match? (.literal text :: parts) path = some parameters)
    (hdiverging : ∀ page ∈ pagePaths, ¬ text <+: page ∧ ¬ page <+: text) {r : Route}
    (hr : r ∈ pageRoutes) : r.template.match? path = none := by
  obtain ⟨page, hpage, rfl⟩ := List.mem_map.mp hr
  exact match_eq_none_of_diverging h (hdiverging page hpage)

/-- The pages come first, then the routes of the service in their order. -/
theorem find_of_earlier {a : Application} (earlier : List Route) {later : List Route}
    {route : Route} (hown : ownRoutes = earlier ++ route :: later) {method path : Text}
    {parameters : Parameters}
    (hpages : ∀ r ∈ pageRoutes, r.template.match? path = none)
    (hearlier : ∀ r ∈ earlier, r.template.match? path = none)
    (hmethod : method ∈ route.methods) (hmatch : route.template.match? path = some parameters) :
    find a.routes method path = .full route parameters := by
  have hroutes : a.routes = ((if a.pages then pageRoutes else []) ++ earlier) ++
      route :: (later ++ a.hostRoutes) := by
    rw [Application.routes, hown]
    simp
  rw [hroutes]
  refine find_of_first (fun r hr => ?_) hmatch hmethod
  rcases List.mem_append.mp hr with hr | hr
  · split at hr
    · exact hpages r hr
    · cases hr
  · exact hearlier r hr

/-- The path of the status begins that of a check, which is longer. -/
theorem status_match_eq_none {path : Text} {parts : List Part} {parameters : Parameters}
    (h : Template.match? (.literal "/allowlist/check/" :: parts) path = some parameters) :
    Template.match? [.literal "/allowlist"] path = none := by
  cases hstatus : Template.match? [.literal "/allowlist"] path with
  | none => rfl
  | some _ =>
    have hlong := (prefix_of_match h).length_le
    have hshort := length_of_match_literal hstatus
    have hlengths : (Text.ofString "/allowlist").length + 1 <
      (Text.ofString "/allowlist/check/").length := by decide +kernel
    omega

/-- **A request is led to the route of the service that it matches**, whatever routes a host adds
and whether there are pages. -/
theorem find_own {a : Application} {route : Route} (hroute : route ∈ ownRoutes)
    {method path : Text} {parameters : Parameters} (hmethod : method ∈ route.methods)
    (hmatch : route.template.match? path = some parameters) :
    find a.routes method path = .full route parameters := by
  simp only [ownRoutes, List.mem_cons, List.not_mem_nil, or_false] at hroute
  rcases hroute with rfl | rfl | rfl | rfl
  · exact find_of_earlier [] rfl
      (fun r hr => page_match_eq_none hmatch (by decide +kernel) hr) nofun hmethod hmatch
  · refine find_of_earlier [_] rfl
      (fun r hr => page_match_eq_none hmatch (by decide +kernel) hr) ?_ hmethod hmatch
    rw [List.forall_mem_singleton]
    exact match_eq_none_of_diverging hmatch (by decide +kernel)
  · refine find_of_earlier [_, _] rfl
      (fun r hr => page_match_eq_none hmatch (by decide +kernel) hr) ?_ hmethod hmatch
    rw [List.forall_mem_cons, List.forall_mem_singleton]
    exact ⟨match_eq_none_of_diverging hmatch (by decide +kernel), status_match_eq_none hmatch⟩
  · refine find_of_earlier [_, _, _] rfl
      (fun r hr => page_match_eq_none hmatch (by decide +kernel) hr) ?_ hmethod hmatch
    rw [List.forall_mem_cons, List.forall_mem_cons, List.forall_mem_singleton]
    exact ⟨match_eq_none_of_diverging hmatch (by decide +kernel),
      match_eq_none_of_diverging hmatch (by decide +kernel),
      match_eq_none_of_diverging hmatch (by decide +kernel)⟩

end AdmissionControl.Service
