import OrderTelemetry.Proofs.Decimal.Digits
import OrderTelemetry.Proofs.Http.Exchange
import OrderTelemetry.Proofs.Http.Form

/-! # Requests that read

A client at the root of a service reaches the route that it names, with the query that it writes
(`answer_get`), and the service understands what is asked for: the records of an order
(`ofQuery?_orderId`) or a page of a given size (`ofQuery?_limit`). -/

namespace OrderTelemetry

open Http

namespace Http.Client

variable {c : Client} {path : String} {pairs : List (String × String)}

/-- The query with its question mark, nothing if no pair is asked for. -/
theorem target_get (hroot : c.basePath = "") :
    (c.get path pairs).target.toList =
      path.toList ++ (if pairs = [] then [] else '?' :: (Form.encode pairs).toList) := by
  unfold get
  rw [hroot]
  cases pairs with
  | nil => simp
  | cons p pairs => simp

section Path
variable (hroot : c.basePath = "") (hpath : ∀ d ∈ path.toList, (d != '?' && d != '#') = true)
include hroot hpath

theorem path_get : (c.get path pairs).path = path := by
  unfold Request.path
  rw [target_get hroot, List.takeWhile_append_of_pos hpath]
  split_ifs
  · simp
  · simp

theorem query_get : (c.get path pairs).query = Form.encode pairs := by
  have hinner : (Form.encode pairs).toList.takeWhile (· != '#') = (Form.encode pairs).toList :=
    List.takeWhile_eq_self_iff.mpr fun d hd => bne_iff_ne.mpr (Form.ne_of_mem_encode hd)
  unfold Request.query
  rw [target_get hroot, List.dropWhile_append_of_pos hpath]
  cases pairs with
  | nil => rfl
  | cons p pairs =>
    rw [if_neg (List.cons_ne_nil p pairs)]
    show String.ofList ((Form.encode (p :: pairs)).toList.takeWhile (· != '#')) = _
    rw [hinner, String.ofList_toList]

end Path

end Http.Client

namespace Service

variable {s : Service} {c : Client} {pairs : List (String × String)} {now : Instant}

theorem path_inner (route : Route) : ∀ d ∈ route.path.toList, (d != '?' && d != '#') = true := by
  refine List.all_eq_true.mp ?_
  cases route <;> decide

theorem ofPath?_path (route : Route) : Route.ofPath? route.path = some route := by
  cases route <;> decide +kernel

/-- A client at the root of a service reaches the route that it names. -/
theorem answer_get (hroot : c.basePath = "") (route : Route) :
    s.answer (c.get route.path pairs) now = s.get route (Form.encode pairs) now := by
  have hmethod : (c.get route.path pairs).method = "GET" := rfl
  unfold answer
  rw [Client.path_get hroot (path_inner route), ofPath?_path, hmethod,
    Client.query_get hroot (path_inner route)]
  exact if_pos rfl

/-- A client gets the value that a route gives, as far as the codec reads it. -/
theorem run_get {α : Type} {codec : Json.Codec α} {a : α} {o : Option α} {s' : Service}
    (route : Route) (hroot : c.basePath = "")
    (hanswer : (s.get route (Form.encode pairs) now).answer = .ok (.ofValue 200 codec a))
    (hstate : (s.get route (Form.encode pairs) now).state = s') (hyields : codec.Yields a o) :
    (Client.send (transport now) (c.get route.path pairs) (Client.decode codec)).run s =
      (o.elim (.error (.http "error decoding response body")) .ok, s') := by
  rw [Client.run_send, answer_get hroot, hanswer, hstate]
  exact congrArg (fun d => (d, s')) (Client.decode_ofValue_elim (by decide) hyields)

/-! ### What is asked for -/

theorem ofQuery?_nil : LogsQuery.ofQuery? (Form.encode []) = some {} := by
  unfold LogsQuery.ofQuery?
  rw [Form.decode_encode]
  rfl

theorem ofQuery?_orderId (orderId : String) :
    LogsQuery.ofQuery? (Form.encode [("order_id", orderId)]) =
      some { orderId := some orderId } := by
  unfold LogsQuery.ofQuery?
  rw [Form.decode_encode]
  rfl

theorem ofQuery?_limit {limit : Nat} (h : limit ≤ 0xFFFFFFFFFFFFFFFF) :
    LogsQuery.ofQuery? (Form.encode [("limit", limit.repr)]) = some { limit := some limit } := by
  unfold LogsQuery.ofQuery?
  rw [Form.decode_encode]
  show (LogsQuery.add {} ("limit", limit.repr) >>= fun q => some q) = _
  unfold LogsQuery.add
  rw [if_neg (show ¬ "limit" = "order_id" by decide), if_pos rfl, Decimal.uint64?_repr h]
  rfl

end Service

end OrderTelemetry
