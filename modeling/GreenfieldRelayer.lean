import GreenfieldRelayer.Types
import GreenfieldRelayer.Pass
import GreenfieldRelayer.Executor
import GreenfieldRelayer.Assembler
import GreenfieldRelayer.Log
import GreenfieldRelayer.ProcessPkgs
import GreenfieldRelayer.Iteration
import GreenfieldRelayer.Loop
import GreenfieldRelayer.Process
import GreenfieldRelayer.PassLaws
import GreenfieldRelayer.Runs
import GreenfieldRelayer.ClaimChain
import GreenfieldRelayer.Progress
import GreenfieldRelayer.Alerts
import GreenfieldRelayer.Failures
import GreenfieldRelayer.GreenfieldDao
import GreenfieldRelayer.ClaimContent
