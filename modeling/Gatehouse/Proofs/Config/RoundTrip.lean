import Gatehouse.Config.Encode
import Gatehouse.Config.Load
import Gatehouse.Proofs.Config.Node
import Gatehouse.Proofs.Except
import Gatehouse.Proofs.Time.Duration

/-!
# Loading a written configuration

Each settings type is read back from the value that is written for it, one lemma `ofNode_toValue`
for each. The value of a configuration is exact (`toValue_exact`), so that the reader of JSON gives
its tree back, and a text that refers to no variable is not changed in front of the reader. From these
`load_write`: what is loaded from the text of a configuration is the configuration.

`WellFormed` asks that the whole seconds of a duration fit a word of 64 bits, as they do in every
duration that a text stands for, and that arguments are maps sorted by name without doubles.
-/

namespace Gatehouse

/-! ## Well-formed configurations -/

/-- A spec whose arguments hold no double and no integer beyond a word, and are sorted by name. -/
structure Spec.WellFormed (s : Spec) : Prop where
  exact : (Json.Value.object s.args.fields).Exact
  sorted : (Json.Value.object s.args.fields).Sorted

namespace Config

open Node (written)
open Json (Value Fields)

/-- The settings of a server, each duration of which has a text. -/
structure Server.WellFormed (s : Server) : Prop where
  readHeaderTimeout : s.readHeaderTimeout.seconds < Duration.limit
  readTimeout : s.readTimeout.seconds < Duration.limit
  writeTimeout : s.writeTimeout.seconds < Duration.limit
  idleTimeout : s.idleTimeout.seconds < Duration.limit
  shutdownTimeout : s.shutdownTimeout.seconds < Duration.limit

/-- The settings of a breaker, each duration of which has a text. -/
structure BreakerSettings.WellFormed (b : BreakerSettings) : Prop where
  interval : b.interval.seconds < Duration.limit
  timeout : b.timeout.seconds < Duration.limit

/-- The settings of a route, each part of which is well-formed. -/
structure RouteEntry.WellFormed (r : RouteEntry) : Prop where
  predicates : ∀ s ∈ r.predicates, Spec.WellFormed s
  filters : ∀ s ∈ r.filters, Spec.WellFormed s
  timeout : ∀ d ∈ r.timeout, d.seconds < Duration.limit
  breaker : ∀ b ∈ r.breaker, b.WellFormed

/-- The settings of the client, each duration of which has a text. -/
structure Client.WellFormed (c : Client) : Prop where
  connectTimeout : c.connectTimeout.seconds < Duration.limit
  poolIdleTimeout : c.poolIdleTimeout.seconds < Duration.limit

/-- The routes and what they share, each part of which is well-formed. -/
structure Gateway.WellFormed (g : Gateway) : Prop where
  routes : ∀ r ∈ g.routes, r.WellFormed
  globalFilters : ∀ s ∈ g.globalFilters, Spec.WellFormed s
  globalTimeout : ∀ d ∈ g.globalTimeout, d.seconds < Duration.limit
  client : g.client.WellFormed

/-- A configuration each part of which is well-formed. -/
structure WellFormed (c : Config) : Prop where
  server : c.server.WellFormed
  gateway : c.gateway.WellFormed

/-! ## Reading structures -/

theorem duration_ofValue {d : Duration} (hd : d.seconds < Duration.limit) :
    Node.duration (Node.ofValue (durationValue d)) = .ok d := by
  rw [durationValue, Node.ofValue, Node.ofText, Node.duration, Duration.parse?_format hd]

@[simp]
theorem lookup_optionalField {α : Type} (name key : String) (write : α → Value) (o : Option α) :
    (optionalField name write o).lookup key = if key = name then o.map write else none := by
  cases o with
  | none => simp [optionalField]
  | some a =>
    rw [optionalField, List.lookup_cons, List.lookup_nil]
    by_cases h : key = name
    · simp [h]
    · rw [if_neg h, beq_eq_false_iff_ne.mpr h]

theorem optionalField_sublist {α : Type} (name : String) (write : α → Value) (o : Option α) :
    ((optionalField name write o).map Prod.fst).Sublist [name] := by
  cases o <;> simp [optionalField]

theorem specOfNode_specValue {s : Spec} (hs : Spec.WellFormed s) :
    specOfNode (Node.ofValue (specValue s)) = .ok s := by
  obtain ⟨name, ⟨args⟩⟩ := s
  cases args with
  | nil => rfl
  | cons field fields =>
    have hargs : Node.toFields [] (Node.ofValueFields (field :: fields)) = .ok (field :: fields) :=
      Node.toFields_ofValueFields [] hs.sorted.1 hs.exact.legal hs.sorted.2
    have hvalue : specValue ⟨name, ⟨field :: fields⟩⟩ =
        .object [("name", .string name), ("args", .object (field :: fields))] := rfl
    rw [hvalue, Node.ofValue, specOfNode, Node.fieldsAreReadable_ofValueFields,
      Node.known_ofValueFields]
    · simp [ok_bind, List.lookup_cons, Node.ofValue, Node.ofText, hargs]
      rfl
    · simp
    · exact ⟨trivial, hs.exact.legal, trivial⟩

theorem Server.ofNode_toValue {s : Server} (hs : s.WellFormed) :
    Server.ofNode (Node.ofValue s.toValue) = .ok s := by
  have hport := Node.natBelow_ofValue (UInt16.toNat_lt s.port)
  have hbytes := Node.natBelow_ofValue (UInt64.toNat_lt s.maxHeaderBytes)
  rw [Server.ofNode, Server.toValue, Node.structure?_ofValue, ok_bind]
  · -- every field is written, so it does not matter what the defaults are
    extract_lets d
    clear_value d
    simp [ok_bind, List.lookup_cons, hport, hbytes,
      duration_ofValue hs.readHeaderTimeout, duration_ofValue hs.readTimeout,
      duration_ofValue hs.writeTimeout, duration_ofValue hs.idleTimeout,
      duration_ofValue hs.shutdownTimeout]
  · exact List.Sublist.refl _
  · decide

theorem BreakerSettings.ofNode_toValue {b : BreakerSettings} (hb : b.WellFormed) :
    BreakerSettings.ofNode (Node.ofValue b.toValue) = .ok b := by
  have hmax := Node.natBelow_ofValue (UInt32.toNat_lt b.maxRequests)
  have hfailures := Node.natBelow_ofValue (UInt64.toNat_lt b.consecutiveFailures)
  rw [BreakerSettings.ofNode, BreakerSettings.toValue, Node.structure?_ofValue, ok_bind]
  · extract_lets d
    clear_value d
    simp [ok_bind, List.lookup_cons, hmax, hfailures, duration_ofValue hb.interval,
      duration_ofValue hb.timeout]
  · exact List.Sublist.refl _
  · decide

theorem RouteEntry.ofNode_toValue {r : RouteEntry} (hr : r.WellFormed) :
    RouteEntry.ofNode (Node.ofValue r.toValue) = .ok r := by
  have hpredicates := Node.list_ofValue fun s hs => specOfNode_specValue (hr.predicates s hs)
  have hfilters := Node.list_ofValue fun s hs => specOfNode_specValue (hr.filters s hs)
  have htimeout : Node.readField (Node.optional Node.duration) (.ok none)
      (r.timeout.map durationValue) = .ok r.timeout :=
    Node.readField_optional r.timeout (fun _ => nofun) fun d hd => duration_ofValue (hr.timeout d hd)
  have hbreaker : Node.readField (Node.optional BreakerSettings.ofNode) (.ok none)
      (r.breaker.map BreakerSettings.toValue) = .ok r.breaker :=
    Node.readField_optional r.breaker (fun _ => nofun) fun b hb =>
      BreakerSettings.ofNode_toValue (hr.breaker b hb)
  have hlevel : Node.readField (Node.optional Node.text) (.ok none) (r.logLevel.map .string) =
      .ok r.logLevel :=
    Node.readField_optional r.logLevel (fun _ => nofun) fun s _ => Node.text_ofValue s
  rw [RouteEntry.ofNode, RouteEntry.toValue, Node.structure?_ofValue]
  · simp [ok_bind, List.lookup_cons, List.lookup_append, hpredicates, hfilters, htimeout, hbreaker,
      hlevel]
  · simp only [List.map_append]
    exact (((List.Sublist.refl _).append (optionalField_sublist _ _ _)).append
      (optionalField_sublist _ _ _)).append (optionalField_sublist _ _ _)
  · decide

theorem pathValue_ofValue (path : Option String) :
    Node.optional Node.text (Node.ofValue (pathValue path)) = .ok path := by
  cases path <;> rfl

theorem TlsFiles.ofNode_toValue (t : TlsFiles) :
    TlsFiles.ofNode (Node.ofValue t.toValue) = .ok t := by
  rw [TlsFiles.ofNode, TlsFiles.toValue, Node.structure?_ofValue]
  · simp [ok_bind, List.lookup_cons, pathValue_ofValue]
  · exact List.Sublist.refl _
  · decide

theorem Client.ofNode_toValue {c : Client} (hc : c.WellFormed) :
    Client.ofNode (Node.ofValue c.toValue) = .ok c := by
  have hidle := Node.natBelow_ofValue (UInt64.toNat_lt c.poolMaxIdlePerHost)
  have htls : Node.readField (Node.optional TlsFiles.ofNode) (.ok none)
      (c.tls.map TlsFiles.toValue) = .ok c.tls :=
    Node.readField_optional c.tls (fun _ => nofun) fun t _ => TlsFiles.ofNode_toValue t
  rw [Client.ofNode, Client.toValue, Node.structure?_ofValue, ok_bind]
  · extract_lets d
    clear_value d
    simp [ok_bind, List.lookup_cons, hidle, htls, duration_ofValue hc.connectTimeout,
      duration_ofValue hc.poolIdleTimeout]
  · rw [List.map_append]
    exact (List.Sublist.refl _).append (optionalField_sublist _ _ _)
  · decide

theorem Gateway.ofNode_toValue {g : Gateway} (hg : g.WellFormed) :
    Gateway.ofNode (Node.ofValue g.toValue) = .ok g := by
  have hroutes := Node.list_ofValue fun r hr => RouteEntry.ofNode_toValue (hg.routes r hr)
  have hfilters := Node.list_ofValue fun s hs => specOfNode_specValue (hg.globalFilters s hs)
  have htimeout : Node.readField (Node.optional Node.duration) (.ok none)
      (g.globalTimeout.map durationValue) = .ok g.globalTimeout :=
    Node.readField_optional g.globalTimeout (fun _ => nofun) fun d hd =>
      duration_ofValue (hg.globalTimeout d hd)
  rw [Gateway.ofNode, Gateway.toValue, Node.structure?_ofValue, ok_bind]
  · generalize ({} : Client) = d
    simp [ok_bind, List.lookup_cons, List.lookup_append, hroutes, hfilters, htimeout,
      Client.ofNode_toValue hg.client]
  · simp only [List.map_append]
    exact ((List.Sublist.refl _).append (optionalField_sublist _ _ _)).append (List.Sublist.refl _)
  · decide

theorem LogFormat.ofNode_name (f : LogFormat) :
    LogFormat.ofNode (Node.ofValue (.string f.name)) = .ok f := by
  cases f <;> rfl

theorem Logging.ofNode_toValue (l : Logging) : Logging.ofNode (Node.ofValue l.toValue) = .ok l := by
  rw [Logging.ofNode, Logging.toValue, Node.structure?_ofValue, ok_bind]
  · extract_lets d
    clear_value d
    simp [ok_bind, List.lookup_cons, LogFormat.ofNode_name]
  · exact List.Sublist.refl _
  · decide

/-- The tree of a configuration's value is read as the configuration. -/
theorem ofNode_toValue {c : Config} (hc : c.WellFormed) :
    ofNode (Node.ofValue c.toValue) = .ok c := by
  rw [ofNode, toValue, Node.structure?_ofValue, ok_bind]
  · generalize ({} : Server) = server
    generalize ({} : Gateway) = gateway
    generalize ({} : Logging) = logging
    simp [ok_bind, List.lookup_cons, Server.ofNode_toValue hc.server, Gateway.ofNode_toValue hc.gateway,
      Logging.ofNode_toValue]
  · exact List.Sublist.refl _
  · decide

/-! ## Writing exact values -/

theorem fieldsExact_optionalField {α : Type} {name : String} {write : α → Value} {o : Option α}
    (h : ∀ a ∈ o, (write a).Exact) : Json.Value.FieldsExact (optionalField name write o) := by
  cases o with
  | none => trivial
  | some a => exact ⟨h a rfl, trivial⟩

theorem exact_array {α : Type} {write : α → Value} {as : List α} (h : ∀ a ∈ as, (write a).Exact) :
    (Value.array (as.map write)).Exact := by
  change Json.Value.ItemsExact (as.map write)
  rw [Json.Value.itemsExact_iff, List.forall_mem_map]
  exact h

theorem specValue_exact {s : Spec} (hs : Spec.WellFormed s) : (specValue s).Exact := by
  change Json.Value.FieldsExact (_ ++ _)
  rw [Json.Value.fieldsExact_append]
  refine ⟨⟨trivial, trivial⟩, ?_⟩
  split
  · trivial
  · exact ⟨hs.exact, trivial⟩

theorem Server.toValue_exact (s : Server) : s.toValue.Exact := by
  have hport : s.port.toNat < UInt64.size := Nat.lt_trans (UInt16.toNat_lt s.port) (by decide)
  have hbytes := UInt64.toNat_lt_size s.maxHeaderBytes
  exact ⟨trivial, Json.Value.exact_ofNat hport, trivial, trivial, trivial, trivial,
    Json.Value.exact_ofNat hbytes, trivial, trivial⟩

theorem BreakerSettings.toValue_exact (b : BreakerSettings) : b.toValue.Exact := by
  have hmax : b.maxRequests.toNat < UInt64.size :=
    Nat.lt_trans (UInt32.toNat_lt b.maxRequests) (by decide)
  have hfailures := UInt64.toNat_lt_size b.consecutiveFailures
  exact ⟨Json.Value.exact_ofNat hmax, trivial, trivial, Json.Value.exact_ofNat hfailures, trivial⟩

theorem RouteEntry.toValue_exact {r : RouteEntry} (hr : r.WellFormed) : r.toValue.Exact := by
  have hpredicates := exact_array fun s hs => specValue_exact (hr.predicates s hs)
  have hfilters := exact_array fun s hs => specValue_exact (hr.filters s hs)
  change Json.Value.FieldsExact (_ ++ _ ++ _ ++ _)
  rw [Json.Value.fieldsExact_append, Json.Value.fieldsExact_append, Json.Value.fieldsExact_append]
  exact ⟨⟨⟨⟨trivial, trivial, hpredicates, hfilters, trivial⟩,
    fieldsExact_optionalField fun _ _ => trivial⟩,
    fieldsExact_optionalField fun b _ => b.toValue_exact⟩,
    fieldsExact_optionalField fun _ _ => trivial⟩

theorem TlsFiles.toValue_exact (t : TlsFiles) : t.toValue.Exact := by
  have hpath : ∀ path : Option String, (pathValue path).Exact := fun path => by
    cases path <;> trivial
  exact ⟨hpath t.ca, hpath t.cert, hpath t.key, trivial⟩

theorem Client.toValue_exact (c : Client) : c.toValue.Exact := by
  have hidle := UInt64.toNat_lt_size c.poolMaxIdlePerHost
  change Json.Value.FieldsExact (_ ++ _)
  rw [Json.Value.fieldsExact_append]
  exact ⟨⟨trivial, trivial, Json.Value.exact_ofNat hidle, trivial, trivial⟩,
    fieldsExact_optionalField fun t _ => t.toValue_exact⟩

theorem Gateway.toValue_exact {g : Gateway} (hg : g.WellFormed) : g.toValue.Exact := by
  have hroutes := exact_array fun r hr => RouteEntry.toValue_exact (hg.routes r hr)
  have hfilters := exact_array fun s hs => specValue_exact (hg.globalFilters s hs)
  change Json.Value.FieldsExact (_ ++ _ ++ _)
  rw [Json.Value.fieldsExact_append, Json.Value.fieldsExact_append]
  exact ⟨⟨⟨hroutes, hfilters, trivial⟩, fieldsExact_optionalField fun _ _ => trivial⟩,
    g.client.toValue_exact, trivial⟩

theorem toValue_exact {c : Config} (hc : c.WellFormed) : c.toValue.Exact :=
  ⟨c.server.toValue_exact, Gateway.toValue_exact hc.gateway, ⟨trivial, trivial, trivial⟩, trivial⟩

/-! ## Texts without references -/

theorem expandFrom_of_referredNames {env : Environment} {cs : List Char}
    (h : referredNames cs = []) : expandFrom env 0 cs = .ok cs := by
  induction cs with
  | nil => rfl
  | cons c cs ih =>
    rw [referredNames, List.append_eq_nil_iff] at h
    have hnone : Reference.ofText? (c :: cs) = none := by
      cases hr : Reference.ofText? (c :: cs) with
      | none => rfl
      | some r => simp [hr] at h
    rw [expandFrom, hnone, ih h.2]
    rfl

/-- A text without references stays as it is. -/
theorem expand_of_referredNames {env : Environment} {text : String}
    (h : referredNames text.toList = []) : expand env text = .ok text := by
  rw [expand, expandFrom_of_referredNames h]
  simp [Except.map]

/-- The text of an exact value is read as the tree of the value. -/
theorem tree?_write {v : Value} (hexact : v.Exact) (hdepth : v.depth ≤ Json.maxDepth) :
    Format.tree? .json v.write.toList = some (Node.ofValue v) := by
  rw [Format.tree?, Json.Value.write, String.toList_ofList, Json.Value.ofText?_chars hexact,
    Option.map_some, Node.ofDocument_document hexact hdepth]

/-- A text is parsed as what its tree is read as. -/
theorem parse_eq_ok {format : Format} {text : String} {tree : Node} {c : Config}
    (htree : format.tree? text.toList = some tree) (hnode : ofNode tree = .ok c) :
    parse format text = .ok c := by
  rw [parse, htree]
  simp only [hnode]

/-- **A configuration is loaded from its text**, whatever the environment: with any number of routes
and specs, settings given or left out, every duration that has a text, and arguments without doubles,
where the text is not nested too deeply and refers to no variable. -/
theorem load_write (env : Environment) {c : Config} (hc : c.WellFormed)
    (hdepth : c.toValue.depth ≤ Json.maxDepth)
    (hreferences : referredNames c.toValue.write.toList = []) :
    load env .json c.toValue.write = .ok c := by
  have htree := tree?_write (toValue_exact hc) hdepth
  rw [load, expand_of_referredNames hreferences, ok_bind]
  exact parse_eq_ok htree (ofNode_toValue hc)

/-- A configuration with a route, a breaker and some settings of the server and of the client. -/
def usersGateway : Config where
  server := { port := 9000, idleTimeout := 31557690500000000, shutdownTimeout := 0 }
  gateway := {
    routes := [{
      id := "users"
      uri := "http://users:8080"
      predicates := [⟨"Path", ⟨[("patterns", .array [.string "/users/**"])]⟩⟩]
      filters := [⟨"RequestResponseLogger", {}⟩,
        ⟨"Weight", ⟨[("group", .string "a\nb"), ("weight", .number (.int (-3)))]⟩⟩]
      timeout := some (.ofMillis 250)
      breaker := some { maxRequests := 2 } }]
    client := { tls := some { ca := some "ca.pem" } } }
  logging := { format := .json }

theorem load_write_usersGateway : usersGateway.WellFormed ∧
    usersGateway.toValue.depth ≤ Json.maxDepth ∧
    referredNames usersGateway.toValue.write.toList = [] ∧
    load (fun _ => none) .json usersGateway.toValue.write = .ok usersGateway := by
  have hpath : Spec.WellFormed ⟨"Path", ⟨[("patterns", .array [.string "/users/**"])]⟩⟩ :=
    ⟨⟨⟨trivial, trivial⟩, trivial⟩, by decide, ⟨trivial, trivial⟩, trivial⟩
  have hlogger : Spec.WellFormed ⟨"RequestResponseLogger", {}⟩ := ⟨trivial, .nil, trivial⟩
  have hweight : Spec.WellFormed
      ⟨"Weight", ⟨[("group", .string "a\nb"), ("weight", .number (.int (-3)))]⟩⟩ :=
    ⟨⟨trivial, ⟨by decide, by decide⟩, trivial⟩, by decide, trivial, trivial, trivial⟩
  have hformed : usersGateway.WellFormed := {
    server := ⟨by decide, by decide, by decide, by decide, by decide⟩
    gateway := {
      routes := List.forall_mem_singleton.mpr {
        predicates := List.forall_mem_singleton.mpr hpath
        filters := List.forall_mem_cons.mpr ⟨hlogger, List.forall_mem_singleton.mpr hweight⟩
        timeout := by rintro _ ⟨⟩; decide
        breaker := by rintro _ ⟨⟩; exact ⟨by decide, by decide⟩ }
      globalFilters := List.forall_mem_nil _
      globalTimeout := by rintro _ ⟨⟩
      client := ⟨by decide, by decide⟩ } }
  have hdepth : usersGateway.toValue.depth ≤ Json.maxDepth := by decide
  have hreferences : referredNames usersGateway.toValue.write.toList = [] := by
    rw [Json.Value.write, String.toList_ofList]
    decide +kernel
  exact ⟨hformed, hdepth, hreferences, load_write _ hformed hdepth hreferences⟩

end Config

end Gatehouse
