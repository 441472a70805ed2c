import PipeGuard.Main
import PipeGuard.Proofs.Arguments
import PipeGuard.Proofs.Carrying
import PipeGuard.Proofs.Copying
import PipeGuard.Proofs.Counting
import PipeGuard.Proofs.Diagnostics
import PipeGuard.Proofs.Flags
import PipeGuard.Proofs.InEffect
import PipeGuard.Proofs.Redeployed
import PipeGuard.Proofs.Rerun
import PipeGuard.Proofs.Restart
import PipeGuard.Proofs.Telling
import PipeGuard.Proofs.Unescaping
