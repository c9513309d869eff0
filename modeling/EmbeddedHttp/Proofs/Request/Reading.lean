/-
# EmbeddedHttp.Proofs.Request.Reading -- memory and spooled bodies read alike

A source of octets has some of them left (`Source.left`), in memory behind a place, in a file
behind the window and in it.  Each way to read cuts its result off the front of what is left
(`Read.Gives`), whatever the window holds when it starts.  So the results of any number of
reads are consecutive pieces of what was written into the body, and a result that what is left
determines is the same for both kinds of storage (`Input.reads_alike`).
-/
import EmbeddedHttp.Request.Input
import EmbeddedHttp.Proofs.Request.Room

namespace EmbeddedHttp

set_option autoImplicit false

/-! ## Up to an octet -/

namespace Bytes

/-- The octets up to and including the first `b`, or all when there is none. -/
def through (b : UInt8) : Bytes → Bytes
  | [] => []
  | c :: rest => if c = b then [c] else c :: through b rest

theorem through_append_of_found {b : UInt8} {front : Bytes} {i : Nat}
    (found : front.findIdx? (· == b) = some i) (rest : Bytes) :
    through b (front ++ rest) = front.take (i + 1) ∧ i < front.length := by
  induction front generalizing i with
  | nil => cases found
  | cons c front ih =>
      rw [List.findIdx?_cons] at found
      by_cases same : c = b
      · simp only [same, beq_self_eq_true, if_true, Option.some.injEq] at found
        subst found
        simp [through, same]
      · simp only [beq_iff_eq, same, if_false, Option.map_eq_some_iff] at found
        obtain ⟨j, later, rfl⟩ := found
        obtain ⟨here, within⟩ := ih later
        simp only [List.cons_append, through, same, if_false, here, List.take_succ_cons, true_and,
          List.length_cons]
        omega

theorem through_append_of_absent {b : UInt8} {front : Bytes}
    (absent : front.findIdx? (· == b) = none) (rest : Bytes) :
    through b (front ++ rest) = front ++ through b rest := by
  induction front with
  | nil => rfl
  | cons c front ih =>
      rw [List.findIdx?_eq_none_iff] at absent
      have other : c ≠ b := by simpa using absent c List.mem_cons_self
      have behind : front.findIdx? (· == b) = none :=
        List.findIdx?_eq_none_iff.2 fun d member => absent d (List.mem_cons_of_mem _ member)
      simp only [List.cons_append, through, other, if_false, ih behind]

end Bytes

/-! ## What is left -/

namespace Source

/-- The result is cut off the front of what was left. -/
def Cuts (source : Source) (got : Bytes × Source) : Prop := got.1 ++ got.2.left = source.left

theorem fill_left (source : Source) : source.fill.2.left = source.left := by
  cases source with
  | memory octets place => rfl
  | file octets offset window place =>
      rw [fill]
      split
      · rename_i usedUp
        -- the window takes over the octets by which the offset moves on
        have passed : octets.drop (offset + ((octets.drop offset).take windowSize).length) =
            (octets.drop offset).drop windowSize := by
          rw [← List.drop_drop, List.length_take]
          by_cases whole : windowSize ≤ (octets.drop offset).length
          · rw [Nat.min_eq_left whole]
          · rw [Nat.min_eq_right (by omega), List.drop_length, List.drop_eq_nil_of_le (by omega)]
        simp only [left, List.drop_zero, List.drop_eq_nil_of_le usedUp, List.nil_append, passed,
          List.take_append_drop]
      · rfl

/-- What can be had at once is the front of what is left. -/
theorem fill_prefix (source : Source) : source.fill.1 <+: source.left := by
  cases source with
  | memory octets place => exact List.prefix_rfl
  | file octets offset window place =>
      rw [fill]
      split
      · rename_i usedUp
        rw [left, List.drop_eq_nil_of_le usedUp]
        exact List.take_prefix _ _
      · exact List.prefix_append _ _

/-- Something can be had at once unless nothing is left. -/
theorem fill_eq_nil (source : Source) : source.fill.1 = [] ↔ source.left = [] := by
  refine ⟨fun none => ?_, fun none => List.prefix_nil.1 (none ▸ source.fill_prefix)⟩
  cases source with
  | memory octets place => exact none
  | file octets offset window place =>
      rw [fill] at none
      split at none
      · rename_i usedUp
        rw [left, List.drop_eq_nil_of_le usedUp, List.nil_append]
        exact (List.take_eq_nil_iff.1 none).resolve_left (by decide)
      · rename_i unread
        exact absurd (List.drop_eq_nil_iff.1 none) unread

/-- What can be had without filling the window. -/
def held : Source → Bytes
  | .memory octets place => octets.drop place
  | .file _ _ window place => window.drop place

theorem fill_held (source : Source) : source.fill.2.held = source.fill.1 := by
  cases source with
  | memory octets place => rfl
  | file octets offset window place =>
      rw [fill]
      split <;> rfl

theorem consume_held {source : Source} {n : Nat} (few : n ≤ source.held.length) :
    (source.consume n).left = source.left.drop n := by
  cases source with
  | memory octets place => exact List.drop_drop.symm
  | file octets offset window place =>
      rw [held] at few
      have within := few
      rw [List.length_drop] at within
      by_cases usedUp : window.length ≤ place
      · have nothing : n = 0 := by omega
        subst nothing
        simp only [consume, left, Nat.add_zero, Nat.min_eq_right usedUp, List.drop_length,
          List.drop_eq_nil_of_le usedUp, List.drop_zero]
      · have inside : min (place + n) window.length = place + n := by omega
        simp only [consume, left, inside, List.drop_append_of_le_length few, List.drop_drop]

/-- Passing over what can be had at once passes over the front of what is left. -/
theorem consume_left {source : Source} {n : Nat} (few : n ≤ source.fill.1.length) :
    (source.fill.2.consume n).left = source.left.drop n := by
  rw [← fill_held] at few
  rw [consume_held few, fill_left]

/-- What reading in one go gives: some of what is left, not too much, and something unless
nothing was asked for or nothing is left. -/
structure Takes (source : Source) (n : Nat) (got : Bytes × Source) : Prop where
  cut : source.Cuts got
  few : got.1.length ≤ n
  some : got.1 = [] → n = 0 ∨ source.left = []

theorem take_takes (source : Source) (n : Nat) : source.Takes n (source.take n) where
  cut := by
    obtain ⟨others, whole⟩ := source.fill_prefix
    have within : (source.fill.1.take n).length ≤ source.fill.1.length := List.length_take_le' _ _
    rw [Cuts, take, consume_left within, List.length_take, ← whole]
    by_cases short : n ≤ source.fill.1.length
    · rw [Nat.min_eq_left short, ← List.take_append_of_le_length short, List.take_append_drop]
    · rw [Nat.min_eq_right (by omega), List.take_of_length_le (by omega), List.drop_left]
  few := List.length_take_le _ _
  some := fun none => (List.take_eq_nil_iff.1 none).imp_right source.fill_eq_nil.1

theorem readOnce_takes (source : Source) (n : Nat) : source.Takes n (source.readOnce n) := by
  cases source with
  | memory octets place => exact take_takes _ n
  | file octets offset window place =>
      rw [readOnce]
      split
      · rename_i past
        have unread : left (.file octets offset window place) = octets.drop offset := by
          rw [left, List.drop_eq_nil_of_le past.1, List.nil_append]
        refine ⟨?_, List.length_take_le _ _, fun none => ?_⟩
        · -- the file goes on behind what was read past the window
          have passed : octets.drop (offset + ((octets.drop offset).take n).length) =
              (octets.drop offset).drop n := by
            rw [← List.drop_drop, List.length_take]
            by_cases whole : n ≤ (octets.drop offset).length
            · rw [Nat.min_eq_left whole]
            · rw [Nat.min_eq_right (by omega), List.drop_length,
                List.drop_eq_nil_of_le (by omega)]
          rw [Cuts, unread]
          simp only [left, List.drop_nil, List.nil_append, passed, List.take_append_drop]
        · rw [unread]
          exact List.take_eq_nil_iff.1 none
      · exact take_takes _ n

/-! ## Reading on -/

theorem readUpToAux_eq {fuel n : Nat} {source : Source} (enough : source.left.length < fuel) :
    (readUpToAux fuel n source).1 = source.left.take n ∧
      source.Cuts (readUpToAux fuel n source) := by
  induction fuel generalizing n source with
  | zero => omega
  | succ fuel ih =>
      have takes := source.take_takes n
      have cut := takes.cut
      rw [Cuts] at cut
      rw [readUpToAux]
      dsimp only
      split
      · rename_i none
        exact ⟨by rw [none, List.take_zero], rfl⟩
      rename_i wanted
      split
      · rename_i none
        have nothing := (takes.some (List.isEmpty_iff.1 none)).resolve_left wanted
        refine ⟨?_, cut⟩
        rw [List.isEmpty_iff.1 none, nothing, List.take_nil]
      · rename_i some_octets
        have shorter := congrArg List.length cut
        have few := takes.few
        have grown := List.length_pos_iff.2 (mt List.isEmpty_iff.2 some_octets)
        rw [List.length_append] at shorter
        obtain ⟨further, rest⟩ := @ih (n - (source.take n).1.length)
          (source.take n).2 (by omega)
        refine ⟨?_, ?_⟩
        · rw [further, ← cut, List.take_append, List.take_of_length_le few]
        · rw [Cuts] at rest
          rw [Cuts, List.append_assoc, rest, cut]

theorem readThroughAux_eq {fuel : Nat} {source : Source} (b : UInt8)
    (enough : source.left.length < fuel) :
    (readThroughAux b fuel source).1 = source.left.through b ∧
      source.Cuts (readThroughAux b fuel source) := by
  induction fuel generalizing source with
  | zero => omega
  | succ fuel ih =>
      obtain ⟨others, whole⟩ := source.fill_prefix
      rw [readThroughAux]
      dsimp only
      split
      · rename_i none
        have nothing := source.fill_eq_nil.1 (List.isEmpty_iff.1 none)
        refine ⟨?_, ?_⟩
        · rw [nothing, Bytes.through]
        · rw [Cuts, List.nil_append, fill_left]
      · rename_i some_octets
        split
        · rename_i i found
          obtain ⟨here, within⟩ := Bytes.through_append_of_found found others
          rw [whole] at here
          refine ⟨here.symm, ?_⟩
          rw [Cuts, consume_left within, ← whole, ← List.take_append_of_le_length within,
            List.take_append_drop]
        · rename_i absent
          have there := Bytes.through_append_of_absent absent others
          have rest : (source.fill.2.consume source.fill.1.length).left = others := by
            rw [consume_left (Nat.le_refl _), ← whole, List.drop_left]
          have shorter := congrArg List.length whole
          have grown := List.length_pos_iff.2 (mt List.isEmpty_iff.2 some_octets)
          rw [List.length_append] at shorter
          obtain ⟨further, cut⟩ := @ih (source.fill.2.consume source.fill.1.length)
            (by rw [rest]; omega)
          refine ⟨?_, ?_⟩
          · rw [further, rest, ← there, whole]
          · rw [Cuts] at cut
            rw [Cuts, List.append_assoc, cut, rest, whole]

theorem readAllAux_eq {room : Nat → Nat} (roomy : ∀ soFar, 0 < room soFar) {fuel soFar : Nat}
    {source : Source} (enough : source.left.length < fuel) :
    (readAllAux room fuel soFar source).1 = source.left ∧
      source.Cuts (readAllAux room fuel soFar source) := by
  induction fuel generalizing soFar source with
  | zero => omega
  | succ fuel ih =>
      have takes := source.readOnce_takes (room soFar)
      have cut := takes.cut
      rw [Cuts] at cut
      rw [readAllAux]
      dsimp only
      split
      · rename_i none
        have nothing := (takes.some (List.isEmpty_iff.1 none)).resolve_left
          (Nat.ne_of_gt (roomy soFar))
        refine ⟨?_, cut⟩
        rw [List.isEmpty_iff.1 none, nothing]
      · rename_i some_octets
        have shorter := congrArg List.length cut
        have grown := List.length_pos_iff.2 (mt List.isEmpty_iff.2 some_octets)
        rw [List.length_append] at shorter
        obtain ⟨further, rest⟩ := @ih (soFar + (source.readOnce (room soFar)).1.length)
          (source.readOnce (room soFar)).2 (by omega)
        refine ⟨?_, ?_⟩
        · rw [further, cut]
        · rw [Cuts] at rest
          rw [Cuts, List.append_assoc, rest, cut]

/-- As many octets as there is a demand for. -/
theorem readUpTo_eq (n : Nat) (source : Source) :
    (source.readUpTo n).1 = source.left.take n ∧ source.Cuts (source.readUpTo n) :=
  readUpToAux_eq (Nat.lt_succ_self _)

theorem readThrough_eq (b : UInt8) (source : Source) :
    (source.readThrough b).1 = source.left.through b ∧ source.Cuts (source.readThrough b) :=
  readThroughAux_eq b (Nat.lt_succ_self _)

/-- Reading to the end gives what is left, however much room there is each time. -/
theorem readAll_eq {room : Nat → Nat} (roomy : ∀ soFar, 0 < room soFar) (source : Source) :
    (source.readAll room).1 = source.left ∧ source.Cuts (source.readAll room) :=
  readAllAux_eq roomy (Nat.lt_succ_self _)

theorem doubling_pos (soFar : Nat) : 0 < doubling soFar := by
  rw [doubling]
  omega

end Source

/-! ## Ways to read -/

namespace Read

/-- What a way to read may give of what is left, and the octets that are read with it. -/
inductive Gives (left : Bytes) : Read → ReadResult → Bytes → Prop where
  | once {n : Nat} {data : Bytes} (front : data <+: left) (few : data.length ≤ n)
      (some : data = [] → n = 0 ∨ left = []) : Gives left (.once n) (.bytes data) data
  | upTo (n : Nat) : Gives left (.upTo n) (.bytes (left.take n)) (left.take n)
  | through (b : UInt8) : Gives left (.through b) (.bytes (left.through b)) (left.through b)
  | line {text : String} (decoded : Utf8.decode? (left.through Bytes.lf) = some text) :
      Gives left .line (.line (left.through Bytes.lf).length text) (left.through Bytes.lf)
  | badLine (undecoded : Utf8.decode? (left.through Bytes.lf) = none) :
      Gives left .line .badLine (left.through Bytes.lf)
  | skip {n : Nat} {data : Bytes} (front : data <+: left) (few : data.length ≤ n)
      (some : data = [] → n = 0 ∨ left = []) : Gives left (.skip n) (.skipped data.length) data
  | all : Gives left .all (.bytes left) left

/-- The result depends on nothing but what is left. -/
def isDetermined : Read → Bool
  | .once _ | .skip _ => false
  | .upTo _ | .line | .through _ | .all => true

theorem Gives.unique {left one other : Bytes} {how : Read} {first second : ReadResult}
    (determined : how.isDetermined = true) (gives : how.Gives left first one)
    (gives' : how.Gives left second other) : first = second := by
  cases gives with
  | once => cases determined
  | skip => cases determined
  | upTo => cases gives'; rfl
  | through => cases gives'; rfl
  | all => cases gives'; rfl
  | line decoded =>
      cases gives' with
      | line decoded' => rw [Option.some.inj (decoded.symm.trans decoded')]
      | badLine undecoded => rw [decoded] at undecoded; cases undecoded
  | badLine undecoded =>
      cases gives' with
      | line decoded => rw [undecoded] at decoded; cases decoded
      | badLine => rfl

/-- The results of reads one after another are consecutive pieces of what was left: each read
cuts its piece off what the reads before it left over. -/
inductive Deliver : Bytes → List Read → List ReadResult → Bytes → Prop where
  | done (left : Bytes) : Deliver left [] [] left
  | next {left rest after piece : Bytes} {how : Read} {result : ReadResult} {hows : List Read}
      {results : List ReadResult} (gives : how.Gives left result piece)
      (cut : left = piece ++ rest) (more : Deliver rest hows results after) :
      Deliver left (how :: hows) (result :: results) after

theorem Deliver.suffix {left after : Bytes} {hows : List Read} {results : List ReadResult}
    (delivers : Deliver left hows results after) : after <:+ left := by
  induction delivers with
  | done => exact List.suffix_rfl
  | next gives cut more ih =>
      rw [cut]
      exact ih.trans (List.suffix_append _ _)

end Read

/-- **Each way to read cuts its result off what is left.** -/
theorem Source.perform_gives (source : Source) (how : Read) :
    ∃ piece, how.Gives source.left (source.perform how).1 piece ∧
      source.left = piece ++ (source.perform how).2.left := by
  cases how with
  | once n =>
      have takes := source.readOnce_takes n
      exact ⟨_, .once ⟨_, takes.cut⟩ takes.few takes.some, takes.cut.symm⟩
  | upTo n =>
      obtain ⟨result, cut⟩ := source.readUpTo_eq n
      refine ⟨(source.readUpTo n).1, ?_, cut.symm⟩
      show Read.Gives _ _ (.bytes (source.readUpTo n).1) _
      rw [result]
      exact .upTo n
  | line =>
      obtain ⟨result, cut⟩ := source.readThrough_eq Bytes.lf
      refine ⟨(source.readThrough Bytes.lf).1, ?_, ?_⟩
      · rw [perform]
        cases decoded : Utf8.decode? (source.readThrough Bytes.lf).1 with
        | none =>
            rw [result] at decoded ⊢
            exact .badLine decoded
        | some text =>
            simp only [result] at decoded ⊢
            exact .line decoded
      · rw [perform]
        split <;> exact cut.symm
  | through b =>
      obtain ⟨result, cut⟩ := source.readThrough_eq b
      refine ⟨(source.readThrough b).1, ?_, cut.symm⟩
      show Read.Gives _ _ (.bytes (source.readThrough b).1) _
      rw [result]
      exact .through b
  | skip n =>
      have takes := source.take_takes n
      exact ⟨_, .skip ⟨_, takes.cut⟩ takes.few takes.some, takes.cut.symm⟩
  | all =>
      obtain ⟨result, cut⟩ := source.readAll_eq doubling_pos
      refine ⟨(source.readAll doubling).1, ?_, cut.symm⟩
      show Read.Gives _ _ (.bytes (source.readAll doubling).1) _
      rw [result]
      exact .all

namespace Input

/-- What is not read yet. -/
def left (input : Input) : Bytes := input.source.left

theorem perform_gives (input : Input) (how : Read) :
    ∃ piece, how.Gives input.left (input.perform how).1 piece ∧
      input.left = piece ++ (input.perform how).2.left :=
  input.source.perform_gives how

/-- Reads one after another: their results, and the body behind them. -/
def performAll (input : Input) : List Read → List ReadResult × Input
  | [] => ([], input)
  | how :: hows =>
      let read := input.perform how
      let further := performAll read.2 hows
      (read.1 :: further.1, further.2)

theorem performAll_delivers (input : Input) (hows : List Read) :
    Read.Deliver input.left hows (input.performAll hows).1 (input.performAll hows).2.left := by
  induction hows generalizing input with
  | nil => exact .done _
  | cons how hows ih =>
      obtain ⟨piece, gives, cut⟩ := input.perform_gives how
      exact .next gives cut (ih _)

end Input

/-! ## What was written -/

namespace Body

/-- The fragments were written into the body one after another, each of them successfully,
with any threshold at any time. -/
inductive Holds : Body → List Bytes → Prop where
  | fresh {declared : Option Nat} {threshold limit : Nat} {body : Body}
      (made : forLength? declared threshold limit = some body) : Holds body []
  | written {body next : Body} {fragments : List Bytes} {data : Bytes} {threshold : Nat}
      (before : Holds body fragments) (accepted : body.write data threshold = (next, none)) :
      Holds next (fragments ++ [data])

theorem write_content {body next : Body} {data : Bytes} {threshold : Nat}
    (accepted : body.write data threshold = (next, none)) :
    next.content = body.content ++ data := by
  rw [← spill_content body data.length threshold]
  rw [write] at accepted
  cases spilled : body.spill data.length threshold with
  | spooled content =>
      rw [spilled] at accepted
      rw [← (Prod.mk.inj accepted).1]
      rfl
  | memory buffer =>
      rw [spilled] at accepted
      have whole := @Buffer.write_whole buffer data
      rcases stored : buffer.write data with ⟨after, excess⟩
      rw [stored] at whole
      cases excess with
      | none =>
          simp only [stored] at accepted
          rw [← (Prod.mk.inj accepted).1]
          exact whole rfl
      | some _ =>
          simp only [stored] at accepted
          cases accepted

theorem Holds.content {body : Body} {fragments : List Bytes} (holds : body.Holds fragments) :
    body.content = fragments.flatten := by
  induction holds with
  | fresh made => exact (forLength?_room made).1
  | written before accepted ih =>
      rw [write_content accepted, ih, List.flatten_append, List.flatten_singleton]

end Body

namespace Input

theorem ofBody_left (body : Body) : (ofBody body).left = body.content := by
  cases body <;> rfl

/-- What is read to the end of a body is its content. -/
theorem readAll_ofBody (body : Body) : ((ofBody body).perform .all).1 = .bytes body.content := by
  have whole := ((ofBody body).source.readAll_eq Source.doubling_pos).1
  rw [← ofBody_left, left, ← whole]
  rfl

/-- **Memory and spooled bodies read alike.**  Whatever reads are made of a body into which
fragments were written, the octets read or passed over are consecutive pieces of these, from
their start on, each as its way to read says.  What can be had at once shows the next of them,
and nothing only at the end; reading to the end gives the rest, however much room there is each
time.  A read whose result depends only on what is left gives the same for any other body with
this content when it is made at the same place, wherever the two are kept and whatever was read
before. -/
theorem reads_alike {body : Body} {fragments : List Bytes} (holds : body.Holds fragments)
    (hows : List Read) :
    Read.Deliver fragments.flatten hows ((ofBody body).performAll hows).1
        ((ofBody body).performAll hows).2.left ∧
      (((ofBody body).performAll hows).2.source.fill.1 <+:
          ((ofBody body).performAll hows).2.left ∧
        (((ofBody body).performAll hows).2.source.fill.1 = [] ↔
          ((ofBody body).performAll hows).2.left = [])) ∧
      (∀ room : Nat → Nat, (∀ soFar, 0 < room soFar) →
        (((ofBody body).performAll hows).2.source.readAll room).1 =
          ((ofBody body).performAll hows).2.left) ∧
      ∀ (other : Body) (others : List Bytes) (before : List Read), other.Holds others →
        others.flatten = fragments.flatten →
        ((ofBody other).performAll before).2.left.length =
          ((ofBody body).performAll hows).2.left.length →
        ∀ how : Read, how.isDetermined = true →
          (((ofBody other).performAll before).2.perform how).1 =
            (((ofBody body).performAll hows).2.perform how).1 := by
  have delivers := (ofBody body).performAll_delivers hows
  rw [ofBody_left, holds.content] at delivers
  refine ⟨delivers, ⟨Source.fill_prefix _, Source.fill_eq_nil _⟩,
    fun room roomy => (Source.readAll_eq roomy _).1, ?_⟩
  intro other others before holds' content place how determined
  have delivers' := (ofBody other).performAll_delivers before
  rw [ofBody_left, holds'.content, content] at delivers'
  -- what is left is the end of the same content, and both ends are as long
  have same : ((ofBody other).performAll before).2.left = ((ofBody body).performAll hows).2.left :=
    (List.suffix_of_suffix_length_le delivers'.suffix delivers.suffix
      (Nat.le_of_eq place)).eq_of_length place
  obtain ⟨_, gives, -⟩ := ((ofBody body).performAll hows).2.perform_gives how
  obtain ⟨_, gives', -⟩ := ((ofBody other).performAll before).2.perform_gives how
  rw [same] at gives'
  exact gives'.unique determined gives

/-- Two fragments, the second of which moves the body out of memory. -/
theorem reads_alike_spilled : ∃ body : Body, body.Holds [[97, 98], [10, 99]] ∧
    body.isSpooled = true ∧
    Read.Deliver [97, 98, 10, 99] [.once 1, .line, .skip 9, .all]
      ((ofBody body).performAll [.once 1, .line, .skip 9, .all]).1
      ((ofBody body).performAll [.once 1, .line, .skip 9, .all]).2.left := by
  have fresh : Body.Holds (.memory (.new Body.initialRoom 99)) [] :=
    .fresh (show Body.forLength? none 3 99 = some _ by decide)
  have first : (Body.memory (.new Body.initialRoom 99)).write [97, 98] 3 =
      (.memory ⟨[97, 98], 100, 99⟩, none) := by decide
  have second : (Body.memory ⟨[97, 98], 100, 99⟩).write [10, 99] 3 =
      (.spooled [97, 98, 10, 99], none) := by decide
  have holds := (fresh.written first).written second
  exact ⟨_, holds, rfl, (reads_alike holds [.once 1, .line, .skip 9, .all]).1⟩

end Input

end EmbeddedHttp
