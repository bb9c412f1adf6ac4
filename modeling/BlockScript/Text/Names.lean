import BlockScript.Text.Packed

/-!
The names of characters, from the first code points to the last ones, and at the end further names
that some of them have.
-/
namespace BlockScript.Text

/-- The names, run by run: the first code point, and the names from it on. -/
def namedRuns : List (Nat × Array String) :=
  unpack
    "BC!1GBG(S#11;7!D<uqZpty26::yv4wtk2B$DQpX1Lf:hRcBp&Yrep$8H6dpb@q0D5XqCp:i=rEls(qA1p<quV/rz-wpOx&
p;ctz$w|BO3qvVstc_,7q$p^1poJqlq`s23pqBKy;p!qLVrLZq$1p$Gry|p=@pVtxqr.yoy~Uyoy~`yozo'yozo)yozo)p5yoy~T
yoy~_7r2tQxBr*ptRteriv)puMp|f<Qq8yYpy2qooZqucpupGr$yozo)yozo)wwVpsq:@ppy[v|=rzwy4"
    310793
    "JCE6QM$n5hiNtY(nD+jUyla4cX#hm@)Em^0xU5>i%J^;9cRQL_>/[ODm_i$aw1EuzA.LO%m.0Kh6R.qcNaB$^oe8z|IQKlJ
qvvB|6EU/4Z0,$5r=aZ6I2(1Af=4J7^;=b1SkggLi?FtWn3%Z~C6:]S='Ii0N'Kpz%:dWK'1eQ.bm)$v'm0$MhIG|aeDx]MF,Iv3
puJHH/g&#e|0Vw|Sh<X2s/0S7(Nvp#*iVM,)Fq)kNBz,IIcY6hQ~Xe,2+/;7!(Ul3&BI`(e>C8i3US,6Z=)vyV!?4=*UnjIZV;JX
!G:eQm<K/?NfRuLUH(G++1BK|m$8_<Ty1]G102;'l*BJK+Avi7Zk|DN&<_e#,VPgy%XPb9VK42bizPGb*CYmG$s7;C|&#B:s*_jt
drAAxqY+5u=M>db7#P:tFFMmUQ*8L!D%!hn?MecW)Z3o~=hU2s(Z%Jpd_KL%Z^,tOHZh>pxbNHyp:m0MLi9J|^@-3waz<I@3Kbh&
rOjb`9~tLe[rUy'5C,-w8wn5FcL2O*ByZ5!Ke0I:Fm4$,R7S,WSU6]Rb?nQ7iwO!fT(mUw]BomZr#^vVgljmmFdpS|WGzT>XQJim
]G^!GQR2ut-9Zht4q7.dOkKpO8CM0.~g`e<vU:BylL~-6)|Kk`AgI|oo0ZXOb'gz!|xSMrm'Ebk/dILTt/xnGS1n<g!nJ7r2m3s6
nI:Ht25BCo/-%:n';5xUDT.#TqY<APpp?6p7LdKq~2k6fAb)5$LEH-'s~q17^0+]JP?7-_+z4K)z&^3eEeG1X5CbXf/x;2ADIb8q
_m==F:IS*QJy2UJ|k#|H|1[:#+!S<rYL=ZVwHRC2RdFXY4BYmW;%oO.85Y6h=G3/y6tTG<!i3(%jT-:l>f:k:'5C|/J+6?vozP:>
mccqFs:hiV+fGgdg0[3lSM!X6!=.t)sZj7v@XHd?-G?4-D6@?rG+4vr*Z!<ncBDtXkBjuq!H71PhsfI[XOA(niNojzN=1#P4;RH3
|u?R~VtB;sI6BS~|/-@L;4sBIdr)lpMZd;mrb,&tT+/jj._<w4<WGrBW*1)?N~Iy990l(!^~^.znunWK'q':i/+v+:t$n]]umVu%
/)X|;-M9:)'p/*l=v^<(8He+s7Ol8<=+Cq43aqKP[Z8U'q=Vh<PbB)+nE5:JX3~y7MDa2MI2x!t7-uL<7KikN&/rye5$*y3'[oFZ
Oo]/KbCb~q_#=9LwvGEdTg9j~*Amc|Gs-^JFhE,Nd8>8eK>1TUgB2bn2bH]c.*Zm?:!vBz^g4erVenMaypa3(fX`|MnA10ZDkHlv
k61K~wxx*@zLl'%m1==q0a*qG#>nF4`y-TpZeDs_C+|<[qj-Q8J>+X,6[nlwx)VrTrbfEX+f4RD*@eClW/?bbEt79l1WVkcDFFoG
k#<NI^bcj&|4d%Q4JzWT:*|v_#WbheQWHW$Lps0x,ozi&N'KmqnGB<NMjnxWQ;oq'9fnm8%MiOhlEEjG#naw<oP<E,ScDTR+D!=`
4To~<pWJ;yl>=y;?)'AcsKLNUPWsz5H=A74h=+X;BuxL&R:r#qrkT.OZOqo$gZ/aRZ<T6#]pE~hno~qlu9LYgW<bF`C#uwm,LTBw
+n0^Fc1m4reT)QI(Tgezt|7]@1Xy`1U`s4b';QGj0i'pNGmn~5<1VM1TYH%c|-(6pU!Y~8sVP60c'F/Mh~Q9F,zvJ^YZkDh+y78'
JG`)cU6qd~|zoQ|jTM+W9ThaP)/S8f,?FOH6~U]No5&4j!lo%8m|X&KJ9l7>,?]TQduv_Oe<ZDOW[&gK.G<SNaN7yIv1m'K)zT`i
v[fc;yk,lX;S!`AH(La11v3l/jGN^&lHPjgYV_,hu<&2>wno4,2&)`)|tWyCk6|##/qH9WbVdzPU.Y6eAQ[N:qLQ0oc/=n-z:F^S
^n&a4Pdr%A:W]^z#~faa[!IZGR?7_FaW^lxwrIe:^*2torc$`,uPMaEzD$+~O@|eYzmN8Ckjkb|w|]J(<mr365UJn=Fo/~u'lyoA
nwo'|3=),5?Di~&.?o`V(tG_s^XIrM2%)JlSiqIB@=Bq#^UgYM~qI5>2fV3:C.BlSnaR?dHYq~##7k<TbyDPEY^N3k0CQH+GK7Zo
p8a0RvGF&:t1^N)hfd)>oZHi8t6ooh:y95W.?kiA3P0+O!v<kvP1NU<LT]3/Nnsw.Ae`iHcOu&a^q%!Ll>dZ9Ng>h0?[n.#YJ!*#
F=HfRf`lXAcD@o.&S03|:j?l.@;IxGSu.ic*!O(Ndy,-*<25?TT&Z-*fr%|P/8]D7E!N7q6Vh?x8j:]hW8k7&jiOTu=#9L<mUOYK
we`vgnF>20.)mWmS?~,e8A33|*1(VZUF$Iu!%>KzdA;z[`x`%L4Ca`Iym,BT%_A##~YiyFe^khIQ38#Kep=uGu<r)Z@h9Cr1lbB.
iFQ==3[(R34+UsQp0hg`xRFK3szM~l9!2!gl'G`8-p5+z%ci-P=3$nLH7=fx3>aXI@PIaA76^vkbP00R[C,0/jN[zmrk6A.plfCo
A+Sj_l?'].hO5_?;yODe_a$Tfqy_sX.?uAg@kZzluTZC>l+r=O%(U.g=PLUaJrLTQ~w?9G]|oWb^(f?0f-#%8Wd;^<oqJYC.k:mn
(.DKwyIk#]G<Jc+d2*V6>Za>%-V`'V_9>CVty<;^vs$fc&%#L7t6R[AYXI2A&8/?dqHUoS,hkSK%x~gTY/Vqik(5JJ3?GFf]@#W^
u,2CPA(d8F%[[y5FSYEDdXy.!bS&M(lX>HHiD<gMLpo&D<3ODlMNaB@[a6FJ/1%gz:ZFA=;#)1E,AlNgF,;YTpCk)dur`6nMecwa
ao7&p&?KdF]ZP%!~#*2(Tq(~I<o(w0O`EUrMGA!)T`B#.?$snAu-tdjXxcVC7t1LOz[Zm`qQdL(6,E<'N~OJV<E?B^uNtxy(E,yb
nS9fi>=<P0x<K~DH;6;`UP)anw&xIC[>jd5v=iqy6)56IZbh.%I^~kK;7dq7=j@-p5Z(5A&.Yk^d~GJ5>Vg:c%T6pU?qxu`LEVK?
_*F4GJ03PDl<i$]y=zYZ'`N-[Cp^[sSW/ODNU0T6BX;5ZC>'oX*d=b]'K)O|t6fmy$f1@dShC[rjj!.RE523;mGW!j%7V2B/-aZ9
Ib>yB4zQFM,tVV!,#%NJMpO]^o9oM>OC>r=~!%IfVUlKX*sIwhig?d2w!Yr.1wfVnYy:k`_C(m1VM#8;u$N4ps`y9x`uVml]an'M
ArEw4-h8k@C?g_'bWK$%Y<?jK@Ro(UY^AksKgz@IWNc/P&X#VGFDw#TS)y;Ag#X'<BQCi|wn%l>'P]&:&!>&,=vH!dB~>P|GOfU9
N,fL6R4E~;2xy$Dc/TEU!xUP68ORw~XzvTF<S>3'|,iU[1L<z#lOap~=,heGQEaXlC1jYKR_HUc@8mTO(J=n*+bsM;G%PY2hyn9%
L&w5]VT:3[^t.A~?n:imXb/yFKYdwk5C68&XC>V9gv4$kQu74F_|Tr~%9nz/k[&fr<<4!VuuW7&?s0@e^|%b@qB.u(Na9nj^QbD;
gubH_IaT)IKyZF3@Nn*`4`b9CY[WXdtw1pSt]WmOo;_!FVaE<U&g6p.n]d0kh6zAk;ia+5kU)Wrm(^,OF-RgayKUwCc(+^.Y0]G`
T`j,6xC%|b[@bCpeUMjcm0s/AWq3X?<+h7,'*1W_7`1f==/pjzONnrC>EK,5f+0Y?EH1bp2jjJ>6ryR_I>TW3pLZ.9'lPkHLf8!u
/wkUOQ@p#W9`J)F1*]TS21=xP62Z:_AG!toSmTu%Zsa`Y!NIwBr(&k5+bB]z#=jZ0xQ8=A<|Kg<H[`XX8_3f>SP4&NT`[@#9J1vH
a<PrfPozHG(pem~g)`6ecFHlKipMSQhn_EiLx~z>!hj.+i4?qT=`b<q=J+xRST^?jsc6l$prS[98wh401sOUn`PLic,@h%]VlH]U
IsR6wqR^@`2=)l.B*;nA2/]DoG]yb_Ty!4(@1~%E?uEE)Xi9._erBVlk>5mK+G2(2Hd8mT%w+R]r4BuE!*OOx2kreD,>||t/eKY?
4o9=>M.6,]e7wWIexbam||*@JQ.>'%Zm`P@W5t$nJ*J,*b`8@h+ZOc_&5oqk^`<Ms#FwoZ*gPz#e[7x%eSUmd#5bVy&$Ek.IeN2a
U]m/G]89Pr)F]vQ0^<l]ar<|&H=_|d.Qcw:C'Q!&;9BZzJOOqUBXwxhL?Och,+0~C]XjOWBi*SDn.RPoOo6,dAGXg#ogt;YevB49
bwP;*Vh_?S+6TK~W-GvOfWgSXPk]d;?EWr'f,Z*f:JcKbhEOig|-BS[`Dj#2Kr:o$<yf9fjb^YUw_4Kgt~vg@X3^33fdS(%bL$Yb
74tmGY?Uo+xLO:N`,avQmYWBaa/bLG5j[|T'S#^J1h+frp~>|s;1rAh@TaP:@>=<rGuXXT1k$:3ZI!Iqc0>VQ,R/@F,S^:B*8R!5
>=S1RWEJev+!;(L;qW#fiTzEK~rpUu]3GNlX6s)dYIY8t0IszI~1C$=@](RsaW3hV-w=g(,ZfX2:uMb2ncV_/t|8:6gUW%bM#rvl
G3IZmWPQP*|yPa=jok>w5a'Q(|E++H3I3|MhCc[POW4alg3FXW&Llg<0D&yO,,G^mQ@~0a5rx::9[kiRps>`vslqrmshcmrW:/Is
j6Sgar%qw3G~SowD)`UAG:=&!~B/(fbVv^zxlSLKW6Bi@:FX[j?M36Qoa(B=sKdDuh?Ib[rSMPVKw.><q8s)2)dVRkYI:bU.RtAz
9^X4b'3m%e^sWDlC79:@@ooKzl`=)~abT;hc:#dpWD,*/,LK%|DH-pcB2Ax2NH?Wh&e?1ki)ayF7iQ4p.^Lx?Nj4cH.Y#K3C71:L
EE([0iRmd>oKJ&9t.~!zkYe<=kcGk])4kd~ZlUBRmQ(nr(Zoa|H8$JZl9FcQBvllx~(&.biG)U2B4x]q3s.N2u&YO*t`ocQSf..]
ZgsT:J0ro4[,BzDsBWX_t(+VJceIH5RSO/Xhq:mTvV`J-/t'zG!I/f0GW4hAEa=C&3@7^R=-exUnU'MJ:yZK-tfv~2>0XR,tv=(L
9i`O4Vdhm;]I(xvTIsm^s?h-l5?<]q+t1LnL*Hpb<jOq>6<xJkz[KsP*g]r]zA|Ws+Wm4(`-hXN-3Hn:)cJIM;na~a%js9(@*H.l
N(C]N&W:0MivRP+y/I:nc|4Zf&:7B~^I+%2j;DcG>&d;RS)7_e0kjB$a^(?%@Yo0y;2L:$MD>@(]jRb48cL`q7gMqY_4^^0iOy[v
Sw~KoMH6S0,&+ZOpWPIT0sqrK#1DZRp;9a!,aQ_5x)onSlqz)6z3C7AC1u[G)vAT@i&y.1omk;,<mJ^Ck$4RY>Pjb^yDSvjWiV%-
Z-*6.(,@-apa^Ty3sVvAcZmp~3baR?S6.qxZvQx?p>bL|Gp,f@uFS-Ff7wIVWs^z?_`',J~@N0*^y1$qGEggLE'NqGw$v)P_eh^n
oCF=)SBOag8XeW<~&A.bET(s'6TSTe,cMoCd[b^|OP(UQzY:(G+NqI*ka7ip4SP,Hh-:1p9Z,vahF0I'&9ru-v2*ZU.69H^P`z'3
z>57_,E(qLPx.)lE;^JLap4bumOm4[,;1a=@u`wGL[@f*#v&-*%K`7dK%M`1u5fCD.aC?3&s^em<Zf30q1S>5^|ZlD?`Pn>i%t+k
q.(5j*@pHR^s[DNe=tL/<pD6JCuw#1-jEn;^4@@Gh|sLO44FnU1h?siUEWewO3b!(3k3w-_s[KkYi$vQ?!g.)Y[^qfX*gq4&'9iL
eb>VyBUX+(Rn7MOR(cbj([l#o^1.*gXiqjvyu59R[t*x@KtbLMNn0qw-Yq9yBR'0EHFQkxxf(`-X)/MmM<UtA2X4$NWcqo>:kQYn
nW]1nI'kezU2EhvzDC4.z2Psm[Clz9o~.mivS,,@+hfGltsz$2^q)mXa~*nn~TuTnczO:tRemH:KC/HqlP`<uO;4ikjUCSSX;7hM
/_G^jsqBCDIiK>rKpfrF4fy9R=L%~h@[oG8=_+f@Bje8b'~tW;=yFKNli?;4s-gr2x3T[|qEtn'eMh`Z;>N|-v5:ROH/2#>b)$rU
&*7%g5(%m3WtiN1ihY-bg77#*xxj?:FKa_)VNkvUT0Z]eC6jsRne.Y,V5`k5][O4JsOD.)5Licn;LCS9Xhs`[Y<@,YFa+Oa|fJsI
&lKZ.eCLur4Y?,VO&Js9gGAfcO0~R[[f/u)w.)UdKi5D,_sm;/yOxK-!]UjL>dJ]`(bpwD]|,&vc9R3C&3a;uay*.ZI5Q>;*!<p^
inYzU`d:5fQa0mys@?%UTU*V+b:-~clW^DXtsQnXJO[WV[I)QC^2Q(`*lO+=fKOj18A95f?G]~F!dc_f[Ay)!Q*r-T|ELnGiT0y$
LhydG_TUSF~MQ!E_-2yCVRkRUd7L6h~4t:-k-2,Iz<pZ&7T=G7Mo5e743#?IG|r;,e8U&Z.[S;T*9Znd#b53vN,'VgHRok-]xO>@
't+;Fw(~&_AP?^mFOW'_q)|gvZG;_p&8kD~Ov<&i2I|&XWLxz>8F2<I;]]:U6ny4(bNmb[*P+;I,;[:/d>6o:[)e!;DL,&Y,vf[M
|]=Lu-WPMd@Twsnai+1!)gnVCTH$pIB[+I:X#XJt>>o4)|R<kubLDo+Wg3#v7c=MwftvW1uijxo!6.Fv]IJ.Fi,vwA1>cF=yGh.n
UNfdieNPHb'n7LmI~qj^yp.u#h?2H-nh3YFY';?Jm>ocQ]<$KR;>]u4j?T)n9*T(i::Ds,id8Z!B%B9X$%XgEVjib,[k9)c.~ni5
N09`&#VkazV5~ha<Kp=PF#ULs&NkSo&uuW._KrIh8mC3gQ`3y23<vcD@NPT+O8Dvsl.Dk.54p?'n;!*<*cdlCF_^gG&E^x44vo[r
TqE$/&^2IH^wc1PMLG%T<9V)pB=9fnTjNg=g#0y/'ij7_Ws=8ly/06qh!V^-RA#%7c/15`[xOlTi(&X2qECO8Z,!)E'=1L2P-)aL
AP|jGLQ,cx2:y0<kB$aK!;~`bW$QuiShjYBVRFV4k8O|~STgq^nIff8Z,qafOj_/P<<`&hT<4ry`ynSYn9,Rba[M&Cgz7zL*.OMe
w5/$M?3[B,84!q5-Y5cr7YKz)2)Hpwd,sG[#aa]x7l%;4vSo&LB0sEvGS)e9)L]Q+DHT/zJVvQWX6F1dQx5_wUH/*o#,B8?:JY+@
)hcU4(?13|CXh<rr*C6Zb@_Z?aSw@Vk'*S^nuG,L2?5dq|.6s3TKZe6HO%mK'iRnt&l9`assZl&#`vU:%tQV@mO#LiUb*3LUh)|4
&uRqXmGD=(W^v0u?pPqWEJ.u|1bF,jj]3y4JvaE+hCD38zp;#ZS@<Q|C7vvIT8d~E]'+1>rE[-!y:.s^Q3[8$~6e4o,0S5rQV;uB
HZD/BAR;1qRLVU#=E)Z(k:[Abc<)OUmsFzO;9*2-@iOSC+8|em;[!J*Ab$?_>BTYD!DG(l:?Nuei!9@9Dnz7#/]z6jL')NPHjs1`
lR&D/!&Q;U+CiQBU2z.SS#'nTW$NX63O8ZZ,4|aj]^98Jdc?&IL96FFm*Uv<^/:Q3+~dhhd9E~nvV$D13BA1[9@x6tkxI1r_B:9v
MkN?CPc27N@_[AfSqqllpw|D09LGX[BveE)9dzx/ylSICMv00~k+#W2LmJ*UXR`<.e1|)+?m2P7n)9Ld+y$yxiq9'k-q@dT(SjC9
vdG5*;_)m/HIehIafnuVU)^NQuwO6Q2L:pOK!3Spa;k=Dp*h-v9$KLIHP7U(x.hsHnZ#Lzjc'~BEIl[Jvr%c(>LKYFB(:]ZAEKi]
Wk+$Df/L_cw,'mX&eoAMJfHLND:p2DE]IVXSGegl|iOF7I01^rFhGNl5~<iSZIS&H15ieY)Y@6g&1%4?E-Esd`Bra<6W>M_Vs>1D
B+dry)s*Y(eYlP+b1o)ug[(_)zk1*U_T-VmsV4aykL!Y96^J;>)N7OV=`/LUc$Pl@/r$n-RJu~+S0~NC6#IEpsjTV@N5lLt|^tdj
~I/T2wUZuSuQV5M7DNLr3L6C=0>eQT[mDE.ZH5@5V4xBPnx+Uhn+_cGA%M5&YJ]n8OLus.@pV_&Y!@Xk^~Vr'A?W+AOO^Z8<:lnl
~dN/p;wI^FBN#L]Z%2N|O1hnR]mCJVW^fw$aAY/=h'%;'w+|_UDUO]Jn%~8A|ujuHl'1e-aC=K|?~f><jV|+Uc19jQ5SNF^;hGq4
V65Ii?-UR,O^Z,L=+&^rva'kHdkll|M/|I,[TY#cCKn|(z*7ke%DPa?@C^~>ndG+^'ppDBV+F/>dC@6k*a31GAn$=!;VvfEpK.3j
)<b:2QvuEX@o`yea$>'(YTRuOKVhYW'e31rE[|7Dc9Lfyg1Xx%4.,I2k9<w0qkpWV=YW^g6k=BpqG~2#/Sn.ihr:<@8,-=ex`#'B
JJ1),yc=O[ROIrsAEZICV#$qe'Hj_(ZSkBcQKwibr@=7scRJsuIA@WokGAzg;9eXzm/yL2tS?Knd1rj8qR]u7'IqtWn+oMB6]>*c
DqB$7-@K:r95`1v(%oAyUCSCddKa|[@lvazoKwE*|Bba<>pQ@`y:/]m.lKwuyt7U9'CO~[')=lQfm0Js&kNztb.NO+X@h<PxDad(
=G9~VEubpkUJ+H'&%JwI.Zj[$08^_M8GI@I]9%4?6?,iLBUOeowfV57kCe+G7A#scorG0`?aoq?5Bq07u,#qoeo*uiYG-/6JZsOb
CGZx!:/vt``MkAKOsSBOk'(D7hSf^<jd5R*>~HR?/>LBn1mFRxG:XYvH0=$1EEd@iXQsIi<n;OjMou0Z+e(6<n-`0;y%^z1=bo*:
DG1KwwUVCA:1z~4WAWM+DkQS,|Z)v|u)*bfwn]+;nEIY[7kb_KLRNE>Vub8Z;S)^5*4'a?o]e%]N*,off@W(+BJ[c+(jW](Wo09,
M5y>&]uIwmi*4Gx-]*~Qw:oQ52Sw8-9];zDg2G^xtiivPWcp=;'u[%d+*`iWOUoi=5/w~z*G[M/KM6'>u/V4&n4[)3E'g!c=(&*l
ZB(j$j=HkrHO_y8<o5aE5]hA]jgoYI#$USzsI#=4^7SEK&bkL+=Kp0U8n=ckQP$`,Mk~TmWs?7H?~qWJJ/ZL4sU62^H6r]~idoxW
e.Nol2g7[mw;JHz^IVj?MGjzO~.ArleM>zoVCW|VRCH=[L=do3K<,NJ,2L(/zuF7@<oUdObOKYZmP(])R_E%PiSbBph%k`WP~.*M
GzW~e8s_-fd:/.7c@gkG,aOs5m!AGd:(|%.(-erG*^$1N5$%8!VU?d.#yyRvfr^6YzJm5mv!XHln1~b#:vlZDP^Qw8P6P8Y&ij`O
t*UP$'j3Ys0^yAaF#EWGH?a/mY2jxl]Z9L!+Ws:*9A<O>ztmc8+A6O'+BW]#!pwNt^r'fFEc+ckI]%ADxjGQE+8:,:RQ31j=bWyn
F>_'ziDUBJ0&/!a9+AvT<3E,E&#h=@IWv(R.=)oZCOz=#5L79F]|ql6hd*.z39YrGj+kS3kbs1JfraC.jV5ux^g!Q]7E+5+qj%#y
%`kQF,*vPX~YL/ioAbZnN[Ty95Gs`LzwO`Av%1%!ax%~[[HX%LdWbGBhF^'POG|HA[cR0g:u8_fjU+`%Hg9-y4Q(Z8I.XO!D1>)J
)A]%l|*BAvbIg?9w7U-I:G//~#HC4&6$M2Q-X3Ln0=Hd~EaP.Yi^&ytmVT>7+zE64Qp)`2yGV5?_3W9KvR?,EEi-5eP?R2uY<er)
Hzt-iAj=6_XIb,Z4,[+rfuw465c2lcGI+N+=LH0q4UxfBgF:<ZRK[DH|:fH7H;mAKRCexBRjGW*C>#q@`#?Ov+q8?-JZXklBA0+X
/t|$:dD;qgbucgVeKoz&+bZxBbfvJ&~qU*%&,h^qv=]eZN8nH!,S'fyrEvhGD)x,=Ed)Fun1'PY_C*)Q%WpilrmMzBqK1HH+T)?V
t+jvpse<$4gAY_whV:yr_T#'qazmGZ.+hBf!pN'DUxns`4oJO#o+At+0&KkQvgUYAP.8[LCmt>G2C4iU&_/HoLampCI$T|kH=qv.
.34l#,0bl]H.P9%yxLDiLubnkc!@~GFZ6=3Sh*824uo,qhj/$zGZaUQ3Y7oJ*M^.HQ%Nl6V.sh-Ff|hsq-fa?9R2y<lt];rI+:AD
Vd,o)whbUfq6*>g35fzY:;@e/n1Ax~/fvP-4Cc/VWMR$|..Qgnw*X!xkV)MK_5pZ%tZ-_;0@9&vXJ<41W]!Ze|po$'s8yT;Z1fiX
YtT2HJh`JafmB!US)z(i1l0LE'BHbbJN!heTnRg@8bu&C.x]#6>bEzAM8-rIV``@%w<SgNI_TM:sS]Iu~*!f1s~geW+@`_s#0qB4
]`($WNAO`v[>f#TX61mm9X]D/f&Wpx~7MeSQPB?p(qfET6w>J:,#eLowD2iV#[#Q)Sv'zmkd.5<(FABXV~e/l_;pFSHt67n?`%O|
pbMAS;TN3+Z~@6y+sotPpF)<].m'ND<#WT1vOgxoNfFb`,eWc0d$AJFziiiD1<@1HEk`zT<Tu,5)[~^`o|DB(>Sr?1~u-zD$n!_%
G/7:`wDesp@?[ms*>EQ&W)ClPdLX4&3m(YAznqkX>6.2;b5uC7SN~-8Vbz2Y;l+(v9*<kDTD?*sP|V92EA4Oy:mZy~Gsw,RA5^La
=XtC$obQ~L_dlcibLvOAho^<sX.P.YF5Px@dn>/<(Vt/R%f.,ham'tW;',atun5HmSSBS.%W?+Zy>55YR<#4XUnrW4=Nu,7`e$fQ
$8uj+kGnSmP,FJJizi]H:nDI_(2QUeH]TO@h*7*i]W0>m/zh$c~h1R?9NN~gqpfLSWe8ps]Yxc:L]v~I%Z!xVb%m:A'AOM)Mn4]'
o+:o|TEjKGXe8h?*w8'u[XK6/~:NmH8p5mSte;Vg;72aXhIQzfC-tJT#gnb|%3GHv@p942_1mi)]kV'n]1M]B-._U]bzQHBf/ol5
sxXjF(gN4WhS-4619T6:9:VM3HN19H+kNz&Xq%('6Z^Nn[h:)s8G$mbGK+vOtw=^IQo,f/9ISsIC(<+5r2Km.7xG^%80Hpm-'05p
+<*)=jSod!H!LbZ<.-qZDruAzw.xG7v8N(w]2XX8OE?J,#PSed3dN--kgtvV/U>*21adq<$EJ;K?VyCZ.9g[AfiY@`K!9niXL6)>
ErRXachhV,6'~O>73Q74B^%[1eRuJjmqz=M!i=l;ho@X#m@y=ORx_JA1g5jAsPQ~JNtbTO9Gj^(xm/f_V[d>S8z+nA(1?@b-_$a7
|S!*n~~g@;C:0-xcS%XX.|af08vdmKj*RJ`TGkVSjL^I9]y]4%+-.7uKhTkW)P;HQj?0Op^BUPA#VsCMnTO/CBjIH2|l-u`VY1!`
7wQA-.V=-eT),SK6u=QN+eD[R?lNlNA@*&U~`v[45Jdr,BGA?E(deWq(|,eX63/UN3y,R191m~qp6a*vewvI8y(/_W#;]`@ygiek
iPqE#Q3d,ST,w;gm5L[&g.|:_)n;ZIr[gB+7QIsKV3['Vy*z1Me@MZl9_Pn1OI9+u|*_^:J%Pl':`.,Wmy$630i@ySlynXRwe_&~
)H$oivCeC)0]TgQk6aZ!uzV[IymO21hDJw?#][bY/xX:iwPO@g@'~3*3a|%gmkT>EC>-?JZF14;!Y'ISsK,HQ#46Cjhs!rP]mBk+
PCtRq#!wB/S|3q'QAN:~k=IDg*bB@,Ex0@y0O[6egVxV<T`|9Q5*$hsXb&QUtXJY2y(nS/-Q^.qTr6!~4~1'ZUOg+^Za`3pjnRuI
GUqqY@T,ArDERPJrY<+,@r&snX^*Z1CQBi9[Am`l?.7rP]dCO-vbx<q_voOo$*w+f,t>'!9g7q%0H;alYa|:l,3v<8:ROp`!w$!;
+GZa]_$%7?cB4r=mceJ>S!62QxAO)KiFP0y1ZiT9McGiIR|x-&=4rh*Ao>f*)6llio3i[J7n6TR)!!=YqX>$V^s0JTMGP.3!;PkE
eHZTnmlTS,AlL&,8UFq6S[c:S^,v&]jLPbtvJi/!Za2gl|cZWUCuexQx16=x_qDE7_OT_X$/qF.g<mc,,n$W=E`Wvf~*Zk7h-z.p
rtuW@m':up.x`64+'Op]Ys;H*G,cS0-H9nhSEk1-2D?L[r_rcWYEol'k._V]yX,luyAe<UwmtC>-(1a;iyMw-:4'@)2z?VY1:A[R
r&Gocg16=.J`wv<RVPU4gIXkh*~=eQGEB%|%a^mVxK%mY|pIbFVsgEH5!RrQRjaRSb]kLhR'!Y,vqa@cG&eC1_>8`9*@&;Mp][pd
$BK<);j>GJq<:gTVD[,eSKHH*WEc?6n8hP-=lj5`Ny8Dd,|(+7e7W/gVj+gT9eUrRxmbYWBwH:HT8/VJ_(%7;`+RCsOdkG/S)n6Z
oVrv4Z%bP;%n.21q?G+b*^IlAecw.=XhQ2KnhcD,-26J80I*Xjv-ZOU[-KMXcD:t2`[3>dD>rh+2@eq,eDh!17ZaO>nPh#WGVgKh
IHOjh$iP<-1j&)%$a5|,+c|.:K8o7(*)C**3J>H`vxB-#Z2bk=Hu>v)za8*=S8GkaPBIwX7iI?N;61gReCFYTz)=UATk;!*^=LlY
LZ]bI9[oGyPf1075CdcQv^WA;4xYJ_rS@|hYx1':eCR`N[[t.cIXirlf4*AN~EUU+_|7qG+0c$FU5v=HgYcIGtdh_XK$buSip72s
XQt[RA8TROKgEy;pl?tw]sL)q:M7xmeD@Ek=`&.5,h_>.2f6|M^1TXUM*GNeQVnd$T7O(4CQP^:3]Y+`2,br3~))!z<%+g$PK%@i
J%@7jfWgzkz'$PjJSb,]U[1/8c2:p@RQ%QZwsjr?S-FcW5v-`$Mk2U=L]D6Lwo4.?.Wd'IGO?*2lZ.!txWbJ#E_fIM<Dqn(ko1ll
:rJK~;*:af;s#@Cd&%3QYL@bJ;RR,V'[I8+XY>|w1qa5UeV;dzax5a|)&TA*>EA7Yba(A:ziLGxKM94#0#A$sn^]u8Q#9!00vtIP
8aSo1J#1@2#Bqk2Czm%p:()bXsw?(,)5k?r^JBkAb`ncvrI4@;gWk=ooSv!^*i*F7QfY2|kq5vgg)L=jsTl,Y|4VAzS><u?2Y*a0
`]'4]cBQTr`&a<?iAo!.Fp@*9N_VZw$_HG~pJ!&SO>p%_pI~lW'=$;l%k@9zg(m&e%eti38sI3DyQh=v!b#i,||dDir<RNbqG#4I
>Tge66@koCW1vf/CXh6,p:XVA!mUL0IIABy$F=bD|gOXWQ;(rxUQE,';Ax5a)WQxS2mNPYdDU|8Jh/RhcJ**gcC_=6)[!i.noRF9
!5:iV`dZi-@Pl-`7TGuMhIP_k_$xNucR1]^HF$#![(:o@H`TQ?rID#K[&=!_N>3myosUX10y0U#0C?5VIk|?2*JS,^haF%!pD*mn
8xs.&|*gyr-~-Io'Om]n3a-#?.S]wb*u#:aRskO)`BvsJz8^t!;J`]+Zf`hb&Od;p|D5M0=CB4Seyx9IJnF:?03A7`;zej-N[ma5
evz+oXCbKQ..!daoowPwAXNdh,HZH|p5s3GB&:-5?!bjRlbPK*/sQ02@l~!N|3xUy2QK>fQKdFCkb6A2[(&;*+J&mqDT`Q'kNwVo
:6vbw'>.H:x3bz$UfkJ3&S[v3MF>U!6VI-L^4>`%ENJ0[.wbn+7k$pj7Ohh9&6hg3aAjxi5=rWB5XLL;7NXy>Odh3g4Y-Su>JHyn
R<%_G@~4e%7ah*'OJi4EVk3Q_s+7^U~O%$YvEYA9K8?(OQ-*pws0UQ90?a$H$t),y%ysdzpr1mbg=X9)Rv.-yRdM@er?0ut_~GQ2
lD&E45atezTC5e@3_D.8!N$*!bIEK@SZt%H$fi=Y&cQ1*j+qOiyy$io9_2@GvQclWHkJ.>;Ei]y2WnLr)2`4KVeoc.d?1cArx<c0
WZZ4V/QO0ZiBwGW_n6b;9<y--pXz9#h8fv6H41'n4$`:vjKG#L`mP^`e|xa8b8gnN_irY!TBjSf;y|_cf+&:&4ULv/I=i2ID`FVj
ny3A@]RlDG#QXfR)B'iH~ss.iV,^vrEu1`39hy@Fc$'^I'it4!Po&V2S&:~pwzKGQkK@i..%4[-R/jry$x`t^C7f|(V?n37iQoN;
+Z5|P;aOtVha;2/L!0XPA#ymX1t*DK48@Sh&_kxCeI8TTO<N.T~1zF0#JcI-;UiC4p[AFe:ktmna_s(K]@Z1_bc4X&SK~R6Y?Shq
!,$$.o+a?RCy&ekc5n6hH`)KkXW(ueqNE?9XF5La_wcV@':Wvdw^E62leI4H-IyB~+JV$=Mj/9|'5%1+PC3xu:ba%]PS#Ls~AW!n
aS<*#Tx^PG.cSRodL&BYXH@%1hQfguv:Ro_Ho5es?p*H.xf'?pHl#N4-Ic<=BJzx2!`_;g8fW*r-|A6TsQ4_*SYMO|=vPp>S8+xH
#@,%?jK.^pi!_Ry=banNQ@-SY4%_xy;fZm2>lmE=6=od]QK-sAS!i&Tg@qQH6%;c)T@r#y6!)>WLg3FKJg)R2'.#-h%s~R<Q_MIR
D8gC`ULeZRf77n=6uI81iZD,/wu(V5;]-8q@M4#wAf8%5n6_f#73l59zGd>w%9Tajt)X027s0BiZRE_l)Ume(M,Oq/J%(^2*kg:%
f92E>8-c+ClF#e.ZxpY*nb*8;$&2v^.onZA-3]xmca(1@Ch-(3xC6k<B6a%2w&>9A0AepyV:XF^!IzZYN-S/0hjh'-XXyfmaqO%&
.w:rbRV4G=?J=bZ1Nn4.34/1KNA.c!3LvWul,ItjIen[=s|,zkY&$-,(<J`&^!;f$/[rOx)Zt)),PrY!re)p3k5VYgv4.l4,A8Z@
$)T%C:A<#U`_~]%7:)h8o=D#+weVQAa24o.^UFAVji?6YGa23ZvHs/J1)orbB%L|'.BiJM/`*C7|v>%j_E*C4Flf';%p(%)0q*pJ
d&t~.Dj7Bn1,L%*HC_1Yo>s;l3V->^4sqX5pVc+^~g:hrzukf!CJ-et>X%H^If/U44@HFh!$p7-U:So&4PUCNoWG~;O);SalQzey
^N%H?l,1CDnXiXQ!fr<4`)[(z7`?~A9;^@(H<32zXXwo0e'3`z?%UcuAyES0f#-vLJEsOL9u4)_T[/M1&3L`lII(Z,2R&J[R&^Ns
%kN]dGdhAW9Qxv8pE5p>UnLBDZE[](M7Xw1LG.p~]'Z/ICSa4m~>Q=qE&n^~*&eL5/3IQ60G,EPw!(8Rmo_~;~bulrWqC=*xQG9:
9e`0&(I6=vryiv~+Z35+t?3l27%J/pk&YdV5^:n:5h;=7PboXmB(j=qvhq)R]W8uzk_|`3VBqcP_4JfOhsrAkOCxTS3jEFs/UkbD
Mr[%Nz-XbACv3u:eG8(-)?6#dO=upUM,`_4Gz7qv%C#VYJf4@y,hh],tO_bV-$K^u!Tq_Q@3(((=^<RWUl/Xb_'P7<J'M~K'>dCy
`2'M.kk)2,;1`':m9>MghyF@aN-&*g9GIG_)g95y4:4Sp/?EX1,`T6Zz.9_]mDHrzv1@8_vEMFP7=|E,ga3y_ScXMD>G#9_>@%|M
.+CbS~l=d8YZb8bMH$QqPllo,)IEp-Nn^V`LP^J]mi3cCB5Mmnm8CYl:.zixoa!HNc*90>>z!)Z/i)ku)4jY..TJPfP21=bx1&*~
'gB|C7NmIzc:DRIK8G(3ah^.B><1KT>u/?`(|0Dd[cI_4xgZbejmY3(,]KA|q&)0UvAIYjYITGiWPOf]YIg~enI]q`yn?;ah~n_o
oI&m&.[.tp8O9P:t/rWFZ,$j-l,02@Rv:,9:_9x4IHrudCX4*EV8JY[SY@'!|`KivECQB|k759,?TSZ9lM0licGjkI]b'U/wlv[_
&xxY0c!2qtLU&q7t,4_JGj2vK/=H+mA.>*8ECIzZNQZhfBMBV4-l]+~^,&SB,'`;yv'>+^O`<<pp71+sl?T://M|Jx(Ksn<FK*to
]DG|1#2-Tht:JJg!BPN`H4#jqij]6Vs@?YVO^+|5v3$[3WXIzv=h>_NEz<07K/G+S]2YSOTO@qUAA~?@:64l;N33QHYe5.i2z!wJ
gm$E7=d:Uyxs[a3W,8%hEArESP3IiJ&cx(2!S:21Jyq6>$tG;odSmir:P+=qRQ0dr:j+Ka`zNta!wEP'<W~t'K|V35vDA68Afdvo
q)>NbK_+'uw$$s&=5A`B7tr|a8Ces@_[5[h9iJnRe4>$,4Hgmb0DQ6'=l.P:)G~|T8D#WO-1Yi/bU]-pKlD?m`H2vG~kcq'kO,J~
AeNjVU+$OjmIKqf=?WtyJ6!AaNi.$&@W'gTJjUb;2SdVz(/mAA?lnRkh%-/AGnV7qVUoCqRylbA-cg]@wrwM0lvtfe;c4>)zwh~8
`f:18D63Y>2Otb~0RF)(zM/Cn`NciafA@=uC6[O^*R|=[eoB)/-(?0)nX]Zg$r!ao#fAGkw?<7Z~F?wQvh/24BA1$>E[<G|XgTYH
zZqZRICU9fwsHIo-~_qXZK;B`=Vk3XD^oG6KIr90f211r5xsD8;W9~4<#P]j<K)kXezvM6>nk1@7pidgpGOA(Uj|sIP!trn=oOyL
Tm*t!vfvs3p6;~Ed5?n0OQ@l,A`,8FUZ6WOeD%YzI2f15)Ec2S;~(d[S'WoB(2S-`z~yY1)(=Ul9fag0DEKZ_>dOk-lwo1+@dz)c
2!3iJSBnz95Gfrq6YP[J!,/Fo$Am>Ri$(vANEPJhw9:4`-Rf($+UcAKDWL$uR[>_J&JI3?R~A0uphOxl]ld`k.4RCI7t)QykCDWO
UR!uH`(A~~*!sTF)Q@BdaBi.bn;<bpN82L(dd3j^)81dsI6qON/,tqQ1z[$iGQ~NMoq`5?+$5Q)'52w^iGi~k#8%g!;`8K/X7p|_
ax|nXIZdLtfmc%Fh[WmsOBO)pT3gg~>D`+9zp7B1rwBB1AZy0YAyjo0.~4u#,nO;lb:($/`ALK.Rkc5oo%rac%D4(xQiM,VG1%x%
=*<sAj`?#:q3'Nc^7,$V$q^.S>lUxo/t;FZ46yIO-bn0Nr'h[+;v`]$sCtxj~VFmAw0rzRgKJ?mFbKz'oMl-A/5c@.)gB(<a|a>]
yWdA:8PV4;Zdx0!.Z5%[4W+]P7#cZ#zY]/pB4G5cpv*Po9an)P.|uk6F+%t*3(L$'w]yWbzF9FG>.n2v9Q(8/0UUW3l)'*#P`ytp
c2d!H#CA1)*t67V@a;%.NL>bhkdGvM~7&h3s`8dsj`oo2C00P_8vVY`Cu6w%gRcwGfpiAL>lA:pB]sZ~dP|X`)#w-]~DLJOpKdj`
o(%$)NPUO95QM;[_;10|U>LtBTV:8.ehlAs55g5L-1yckVjI)N;|;|@-RW)v>#eWNv00K`a[7[5~vbf,:Q(nM+Zm`CQc!mbv;-T$
E;hY>,tk/=3SQH0?|2!)_NAEDGB%i*!9B@tV)u]9N6KW@-+jZN/t>wyJmMuVCO^]@grm1-=11S_s?,EE*>>uBe&z=zQT'8JazPZ^
`*;$|[)w.Uxg):T!AnCTqMQqhdU9hR~`iRm@>^l19%ZToJ6RYC=z[MHo#([37'3Pq)vrBX~K[[cvZKk]a!6.56oJN&ektn_yI|!;
R:.CFT<25dt@Z[&5Pmz,eg|O8l<Pf/L|$X1LYBN>?z%GJ9)v:=ZWy*/lVFI:0.j6't1>7>2)QSy,gp@m*Xh>yy3zy@^)z7u*$#a+
]f2*r/[E*c_X$l'hkS=;$nl&lR0[Y'y@AHZVL3|p6wh0iy~@]RV(st@NW]aQ67D1@[cF@Cy[>.2kYOJ3dy#*jn4EON!Rgt*tF1cv
YAZw;$9gd?IxH=vmc[(//O!tnYhe>*%M^X[2]JphR*6e[s|J7>),0;V|^xF+S%4Uv5GJ83PhG#l*e*A4]<Q=SD`O>Z=a1V-=14:L
0?C/SOqTZXUyVQLX,!y$1@WXZA$ej1<[(yk4j';;Dzjr|qBRCT@l))+L*!H,r_nn_EA7HU6).#&|(mP5!I!!ArK779*&2--2Tu~,
Fs'um4mMDD(EPCPhP`N@cJ]'vmN+j;fo8qHQEIOs.Tg;XI_ua?Gv1bMUM-A$_'/oE01YUe!M~8XhomJ+c/OwL]O14<<|_lf4%+Uu
`Zlu*R>T1M0<dsx265DVR-G[s4Q$W-Mg`s|r3LU@tEc1Z&VV))2nvn0tY??Cs2RTs81k91c-<s7fmhZXhhVZo^,^WVwg$Qu(0AmR
-NeKKe@NmGtK2C)k.nZB'E*0z<o)SR;1M1$oSXdv;<<+'0q2-9KGo0PA.;/a[rYxu/cyAvkzQdg65~~t$'gkIC)o35Xy1/$jM.Gd
'CCuR+kK|0.$eg=XA.T[$F<knRuu&Zk-(BwN2P$$vC~uhaC^uPWb2qguZMHS)8b'j/t~0-9gF>+1TZbnJo<k9GGr7b2@eDwQ6NJh
40vX+a@7yOA=:.xvPThX2yNB<|kI-sS~rkX3:~s*NhZ^~rh(ND-T-|=rnl9rfgBhav;@u.1~hQB'ZqbDP`I?>VvocbP:;pPd!=(W
FX</jT4.4!].wttYpp=#14eT7s@n6m!yp[3'IWBep,xdDf;IHFno:MFE:J=CVba<RVjuG5>6'ah+8b)R*ofD-)sZrh&L==BBTkW#
yMzqmf~imhXyB3:od,'~7O:ZTGG|,0^tDc@vfCMODZ2(<OW+SR6*rD1q+=P||C?X;_7;F>(tSkD)C6w[rl,!Wo&g*OF,-SmKS`5z
9_mK-,@urr`[s(rCLE'oGz.:X5.cgG)pt*^eCv/_Gm,lO|86L3i`lVk)8IKmCZjA.&YN`2@o@Sujv/BY>2r#22;v%r(Chm`u_WA`
5z!@dvX^4Ly08bn,=Slavt3?F-qh:?A4w?;O<dQ<+s=NjWx$X=:i|+;auPtz4s%Am7Asnf^#4d|+TfQGBcKz:dpNGQ,lnX9$EuY-
0l|r+H(boYv)pY#,:TV!Tee;=j9nq@]>F<K'JxlAA-qR>Ha;BcYk^d<OcT5>~PL(d,sN=*BV95$5.yB#;']n/`ud^L)'2r/;5K5k
ck1Uu`>1*F%(i]TIi;tqkb=UaTlmxsSU[eh~_KEGCXYD'g[;)~*7r>(q2A4Rk_i$G'P87F?xH,b)yoh!=*#+3W(HQbR(6%5y)!QN
HM.-w2DsYSJ#<<?R=NdDyOOSDT9Ur&l-J+(;+-ugD.aa.=tSs$_~nS$c3FDZ8:?sgWnI-CgH#fJo;Csg%av~thrPZwH0Z%EYU45S
vb27sqQ3]`I@G4,s/j#!lz/(=O3Y?Z3e%;R:YVDdT~?5.q&eb|=;O~Je~dI>csglJ8/_P#vsTFGiF6GA8Y]Sg4=$0E<wOE6q2cv_
Y89/be>.Y'hZK<8=qc>f#af.?SwT5B2e7PP2pu27PDMlB/Lw?&FfKvJv|#vTk1CZt.shl+7xOkE~lRJ-85pL_g5)3$7RKKg'hSyg
?U:xSl=xKbguB]|je+Z)*pZM/YfQ0('YM_lOZO)k_aJg-zv2YGmXVU(Md@RW=B+%-($%y2<<Eyd%=:]|XlE9O5|+p|A0?^w/uAVE
an?|B$lm;=i<(-HMLgd7?KUc[sxMyr0v''H1&&$~ccYiI-'xxNn~oqk3&^KMy-3Zk<..8BOdG9z4Tn<Bz,^'^|;,CsWr7D<8G=Y>
!GovMlI6oy?hV5J%Hz8z'(r=<uRY~e=_w>1<3^k8<J]Bz:BYu`p6WO?NQ%/W6=YKwn`t'2r|JT@|[%@,H[%~L!0y;^Be&f,ALJME
<ld?#*]Mi3=R!+oWC0nU>uo%b(p@:mghW1sb##W5`VYlw~7BiKV<d6Q%~A,R0*0iz;%fNS97_8Q>t?h]@RJ3E3]5sAqE]#?@1<nC
)?yB7p4+-2[+3%l8%Np~dz)5-+p8~q*tDcEW/`L>nH+Av#7`5:M!uwe9huUhynJ&)oi*Yn'Cw|LsD0%I#C$~e,@ctZGU(n$_<;Np
t-6Y?kC?,xFI4U<#|OiHW#=L^DCrm.c!;mT#qME51azX,e@zN7D1j7`;MlY:t;&JLvhD7[5.Wd!C?g)LWJpFn[4~N9n&>cz+7`eB
b!Wv;y%7a0O%%W6[9IqzDWRt%mqBhWA:QF_;i3*2L$:8J^3huE&dm-Nw(ZA,-z(ot9QG]UmMeKqyo~l]Uq&k'bTIZ08c~_.#u8*X
7;^NG%e2V21SR/kexHoUNX-Ug]#ZV0pJe[yymNne=k<(Y4g5#X!#R=/SX;]K$-cI#i5PRf@tJ4Z_U^K6M7<ptUc|rb+9!0upMzis
CmCU1xl%2gdesls`h,C~:DYWq7J5VV65QXzwr,MKs*KpF7'R7u_EJXS&vBdcNv0xV!EtUQTN<i^;lD(^eG#^r@l5Z5hm8t*@-zN4
ZnF(S:YhEHM1J6>%z_&'9aC#.es,xMXSr#S%oeSV)4]M>V8%[z]@g(+H7g[zIP(@,Bu!?~S[.g:IOhNB(`G<OPT#w_cCu)Z7#+6O
J9m$<9:R8s.uTpfd$h,!oP:qSslQB6nqBGo.K>d18q//s=p8=#^Ktlfr;4AG*>B9sCCe3(a*_-5a:lG=/IT$L(9B2RRIWay^[k~?
BBC[UhP1|ZNfi>k_?d-4NCB=tG!l1ooJS3:pD-MaruFX-B:*0U)ZwpU8ZR#B./rPg8[hgP-MHWYY.pkl:*t]qu[hc>jU[CT2>E3e
$R]Mq>]#Rh]oy1f.T>0(MqBbT47Ko|L/bXcr5sNUipA'_T2^y~@[fzuMQekwO]j98%g;3*@g'3S.Cz+ZFP.']30r3ynZ_eO~4#k!
@YkAY4,_C|1E+,(zm1z%(P=R>8?'2(>`r:[V`@-xRS0^i80*i+tILtuU&w$B(GU2[a']HWDvs0%#!#7jD(EHR3|'g'~YterjmnPx
|TAk|wAFcbW,S^5KIx%^+?Eu`5:jyW$h^h3;1)7z30=o$6*:&.g.LvRgN!5BAHQt2yrdfa0qgW?UN|Xn[AK5(X~r'|Y&h+27hP-*
I'$t[%`?E#&xs%]^YFTTV2>@#*y`Y/oH9~ViL'h:0`/h-7hNLWA9dpbU@+CPk^i4M%@wakZG'-?Sj?o(M[$DSal__j41Z@h-G#?1
V5)yOWtojBzH2@^JIPdx/Xf@9gkkW[~FmxuMS@ngJI/[b^*zV]V?,.OAz*W1wb<j6eCe;_Wdi2>tx3FRpJPc'y~v@?*qWA@yK&wq
b-Is+GYlxN9AL0yI47Mfy[GmoSlBa|1KJw@wz&Jlr>DCJRypQEE)Obvc6OV#3Sh]04UcNI'+Ja(xvRqGv%>bV@g3MqhX`RSW+Axn
SPHu=tTpgS<v]fhI)FWyg6eSW=$yV>K6qrq>V>SpXo^5vrqK!yrg>.PJ:FLrdFEWPCZ#|YtTSoL<h=;)urT`Cf2J^S@2Y4m(;Pg8
Y-CNu)GQgolb3BH6SsKR+Y!:Et-]DL(zom#xf:1R0naZfZ|FtjN%_wFd8e@Wkbe,n0!B[C'0`gCp@2.L>86+eIp^`J+f[l?%I|Hh
?@mE6&E]man:8kx)b+ZCap95j~Tf-I*2vqE..1$<o$6N*NiM5$W:|[<AZ-)k9h$Jh+X5[pS.mb9*J^sTKzE2kRQ,CApP:VK1_x2H
|(6+[wq(W_7$_Xw$#~<^FgzSe5%Sz[?2>:p7K)QS_]r7|b,eOzxD)ogB3zN^zcDWTkd.Cjcqt&B4Pk<fqSVCR~q)jwI#A+*lgr$c
Gc!iqJ0^BHKgIR%[w+[<3TLgDn^~C3/U6Li))S4x.F_*?U]<_r2U(j=$1o,EQUMJXA1NZ?Xn.8Ut;6?8tzYHWP1ZUt&K0as<6<?.
rmuJ~t9O^AZ'Wh5wFH7U7)H0W!p5yFn5Qfc,jWBU(,WZwN3S9Ucg>-+[?vB'-bBbnq$IGwaZ8*-l|'?H(jjxO&-ng<!F;R#D^YTh
#_&!RMCIpF]cL_-W]Sodq&@V.q(iB>MI)zY`!qQR>^)/G*NO#%2~|Q7.&wZR?>A;SBxR[;$Wp!HHHNxvNM?@Iy+sm$)jD&0T[Wv6
Q]GRAVQ)^'1D-zWrc;hvj|(!m=6fBo>-VUctdD|$W/3TkG(D|K9>:zHS0<iWU24>4![+pI0%D^SyCds]&<kN'@+q-WEn.db1kHWZ
R5).iqo8vp=6cMLM@=^*0ocYMBe]t;tzfr!w8(a.kNFf7UrtChk#sNI!*G3V2FxFdnJ*aYkFyY2=V~|'];VH`usio$)6yE>`>6=t
$JV-hJlweHUuQuEejd<w<|-rE;Nu[cd9%E%z0K^xlC+i^1>rh<lm5v$*k:jr0kL3|Id]=5|aNktzT;MMn'c*($/UfLl>qx&!o)d$
jkx'_aPu_7JH45Uj0sM_#JDShp/5(f+Z=s7`y.ohD0NL)g4xX;l2%mU][a,k#7,T(F@`[*F'>~|:&fJ>kOu$0p(1]OwBl'9rj:=3
hGu>0oifRvItuna4_Ig9Yf!;-o*jXJ!ksDq=nzP46S:OnbVfHwCMzz+b+3t~^xWwp]q*$!fO5^Cbt1OW3@&Jy5Ik:UHGV`*6yA37
^:'%?Xd9/C:X4$trG,q>CoSs_YfN=rZc1c~Mpircy&%R;@>4HnR$+f<Icm(hIjXl3mMQMgyS%PkN3czm.*?^Qs3I/JF|KPesoQ_?
vx&`R#w]S$|:nKBE+U8~+WW`^+LHg%S<%4fCDr%uLzj7|d'2KI@0AAwb@>I+EU?>stu)z&y.DXaHkHIlec*j]>]FZN<o/P(gWnXX
iQMu60$CI>D]|jC<@`4D2F$+^sj&Apxghv|W`YsO:xq#=$p.y,~1l!1,`^'Py6gJ)+;<U:UI76Tcvf'H+.vjVy^DcUtHkgGi7|Mt
kbJEN2zAPx*,s#W:byoJ;6<B/cQmy'ZvIF*W9A/BqbR/yRhT&gP=.B7^;a=N^b,>.W>((.y#qQYmCd9*@)cysD@2fI4dI0%hZ-%-
80U6iMorm^m|h-a)ImH+1Sp.=ju6;kmV=(_3(8kq9V5]]a:?&'Qz'k#L%h,7F9H:2ifT%@.8/vM@:DH:|Aa_*9e/Xj<Ky%b2J]Iy
2Ch[M~Ww,<UFZ&Qzx+OD#9VVqZBg.]m-S+l0qY!uE]We4R##r/wrO$q)%g)Y]c.)48N-`0htC:eNv$&.?RTj':ak|Z:mH@B[bOu%
U`;]1:YdFWO8b`lQ%RY@S5-?6nX:%qI@CqK?kfTUHr?1/X+]BG4F~7L6)8]zui:!g;*fZ>r9(~LQmXc'i.4OrBGg(HT?r+&?@.Wj
q25|ocT&7K1px:hkG`#BqZl5Xr@Q,xN|Jtb/JLynBmgz$7tH2*3*Mq?XB~<;87Luz%|I~v!*]hVM/xRdHdE#-kB[VY-$~&mmgMC5
^HAjb|`n~Q6XuO%t5[B%,YL7yJKa+/XL/GEND*4;P7vn~^fd'p'tWZ&Roo2,C!-McYa2A-^HWmB!+xju5l`cR#iB^X0-8tD@8H%R
Z>v*eNFQUP_M:F$-gd_Dn1vWm7^kCx8vn`my3Gzw8KYyadN@BA0(`sJXm=^4&<YTTmF^5*R|VQJ@'5H_k:j?X~DkN($Hbepo;T93
?qr:nU36ZKz-d(vP8UC;e3z'1Yw0Y9inT/CpB|dO.~|JKEC&fScu+CY7fJ_J/9WMME;okE9LtrpKjY;>*4a%k)yv@=[['c;~?mig
L%$utt4ETQyXIH?,vf;tW#//DKFVl8yK`][H7SV!Kh@JqyfVUnZA|QY^%$7pM$X8[#FO<EAfyVeJQ81=OT-/1BW!s.^LF`%wevEG
03$122'JX7v?'!.->(+l#1P~ip;-No1k~C+od'l~dUg3r9A,ji#bcBA|G+pT;[DgFGJP!nX^&jq~MLn8%Wr1rDPV?HZV'/%S)>v?
C'xRWc(B3f9@09.T!/%LAHU4_x=Xuj@>9Bu!!c48H0c`UCGq-^'hOVXds=J6ev[Eg;K(sGk3%Oxtv(w1hAnl7$Kp=`HdrLd.Yh:X
3w>c4^@v&DC6j:J(@4RxF*r4aB2&CVNf<Ul@c#(JB%l-*cx4W2W$mhdru=-mzfn~~)ph,9*534C>CygA%z=-ZVpN2EQP+XVkHYLo
Ln-tJf'a)p%x(KE=:c_cRG,<E:!-Du2Pu/AHY!OotWfK@mI6^l.<UGFh>BAGdOJED4L<B6b[Qe)hAXue_oBr'F:X>GQvmy7BFWDg
bsv(+^iQxuu~acn[##Ah~JNuyMtps!c3s/mSl6iB[e?b*6#a1#PgiF~pHF^'OR>LB|oiiiS&>kyXBH*n?e>uQBmqa6lJ`I9`Tf>H
eKT)bs0Uq)CO#ar?[IeY!Z%+1Mf&FnmXOC/-i(y8OyS7TWc3KS~s`uI|<uz9UC9[z<<!H$Q~,QIa$ZVw_WQ1?`&DC0e>f9_sCDGU
-ANnbu.ZRwt'/tnwg@885zPU+S1?163MthrEMl;L+$0;5r1qrE[$g'!#WxsgkH5d3KhTBxJP<^EMb?A[fXh:'lO1t]s^QJe2z(dQ
]%liTC44(:e)?]:^vf0`!(K@`;uU1A|Q.+=:pvfKltsNr?@hNok3?Ztsr_KTMv6/(DsZ#__aqSXnAO[w(10m~Zje~`CxdB~j~ul(
P$`C!Da<EiFz~hI!&oi7k*/h+zW3Ley(Bi3WM!=4=@yQ[nVabt$8!yp+;ta+l@Ah%7G39Y]zT=a.egaP,tH/R>HryWA.CK7:A0MS
=itt2uk$e-x^PRQ@:rZP9=vA7l1vfef^PC`Xr#n;T&-EeyFx|#,*Wp2h:g9q8z-*Ds>(!3zHHj9>Oaa10?wM/:SE!9`GQ^KIX`T'
whOoha[?SE3jth$rW<CBx?Kr0.IChu,L&j_-po/RT^sn_z`V#XDq&oQ-,ubp4CS?_32,5ZCfWHo:K](ZKy;Wg!d>gM$!q1a'zf<l
cZj]Q<rt-DYSV_zY_Y~PBUwL6B]%orxA]!ByTG)It]Lh'8>'3qh|;)]nWhZ*+[&0zjAr*/3fXcj2~hH,#~Svx-+DChCD_RR>,qAg
ECOCpz&uWA5-><(=[m2?qLq7dpIJ2*=307X=~P;&gkNpCsx,vQ<|1K^;VLw:3W3l*L_j/SWCF&7?^c|P+ew_&*5c6:Q0F8H#L/]F
jM?|Q7f]TqNNRAA^7[4_n>f1:4X2!8F#(03%dvlY?#PGHyld8+64O0;4T(Q:<pM?nW.!GF~r0@-,gPq%n/=89+E%wp`LF^fyw~*n
@M^2]Wsal.ka>]XygJEi:5`Rhois.W0E:u#Vs^,t,U!1~9_*WE9GxDQ9Q5.[y0Ea85j]i37<QJy=jZ.>]0c*0g:#&b5%)KMB25Y$
[.4S;6zLUwI/<gD.O2SRMn%W@JL+m1F@%FsG-/~Y.VWX9.,D'@+VbnjlGoTe5)y1^)?f,^P:(`<'o=Q~~EVfOfr:5q>@~8`-J9]|
!EfYCgLY3xth?YSj?lv.CFY5UmsZ7)sN>d02n)f3gCK$~'pXVv_IqS-G|kr-fdwm9s.QoskB7H`^M)U1UNirW_<b16BF]rDl8@,[
]0@(G$GkZC(9[hXA*^~`Mk!Qp@Z%PM;:M2jmb@@#id$'!-IJp'=v>4Jy:to?A`.-,JEav#0Y@Gj>'k-q5t@B/T6=SD`zFcU5XoSP
a:2[B=wGr%o.^g`Gb.kqIE[k7DTU/kW~HcfyJzy2pHi[%1Qy'X'-49g|N.c1l]Um3SFM,PZuq#9RaL@0nYSlsVI?m8+VYuK:M$1:
'NU`V*Yd=I]@CvLIN6*Pw+UqSWZ!RzDzUV*+@H=P[J~.gFfXV%!*]QnLDaEO/Pg=U6VVcV:#inR<Shq|#!6FKTfyqI*y^XR`FW=_
=<j5[Sa[nF:Gu?~/E/.k3L>RFrE>pikp-,v~|&4k9F5noZ$AK(L_%@u<tH.nS?(*k#09aeubftaZClf/nc>FT*O9a2#>zOZMA6^S
&raL1Bh;Khnr(=+sL@9*[ibfKy5f;NxPb=keQst&'@'6|+BiansH>8-5cjlj@!SiU|~Mm2OQ1*bM0G:dz1<1&8mAgz9)Y^`;cFK`
!MgkCFaaG2[qtVRm.9+,myKPWU]ciSA_4H(V:q^~li&WC#Ty3?v=&|Er<b@e%-'mS/H;pFc|O-~1j1.OVGC1=2C7L$v:g;P@Fn,[
ZSkUYmfV?,_.RDXcy|:rM9wFOp9C?:4ZyG,!o(Z^SK73K]6l^wdt,t;@/Rrf%%IGKW7:u0MV8)~xy7;uar>p@j^(~;?V9)zVuO1N
LM'Bl$KlW~md0&TIKq<y#=]q7f`lHtypouTu>Qs6n>;,<h]mo6sj%8*f!GY@^7P_W@k&~.X@h-rS4X%hNX%e?@ykwh#lfEt7$L#8
3GzxrBjzURTn`ER$8OJpj59dvQNsMr3N|xM+>>y$$j,R2HBB927enDgFS|3rJ13%V_w|c0<G9'9-SA:p)OH9h1ig|8.YQ~,LjAne
G#kpc]:bMG&4wi[KRPo8l+-CQvD8|&Gnu4wph&J38Xbr.kE,'6s!(I;WVp~p4U-eU1r<O*#K)l]2r.g];HWE:;!Xmo=HbI'70h|)
-EE?gA75wG7x,CX:m7@*kdc-mSB:8@Dr6885gWm.Y=pH*qP*q?epV%seQ*#9!#tgHxEw5^/(hs/9urQlu0>ZK>aj-L]+e/py(,]q
wu'SV>B(FWS58g!dA(wQ],EJwsNCq]-nD2vx-4BZ]yR7nBIYGAr!YH$W6to;|]M[M2W.](YWKKL4!j9;'-VWzl6PUhWT5+Qc1C#u
dA[olw!lrC4[St`>BP8`!+)xDY-+?uHPXl@W-!6c8K'P(:,FLqF~_z_z:EJyf;mfyB1[a$God/iO'<7?]XL',+,pt;Hw(pp&^g)`
:JemL-'~m=iNShiBHA!AT2t'D29#?'&rx9ub?nRXY`P?]yg7$1`mcN8|X2Rg03`z,hg^Y,*`Bf@m'y<(G/PuofIie-Y'E(RteSSn
_2D4l7xRt+R0+sDr;|F<'sEEfGygHT.jRHBk@Q#>!=^JQZ<:r`AGPcs.|P@U7sfD&eE+&PN0[!Us/d?Yjy75i-%S>x?QZg@WuA0U
bJ2Z5Y~KWXv'U^J~hoGnK1*nJl;97%(Bs)5AS?~]zAx$bSFIQAzt/gUj/6ho`s1XJ:=-f2$s3;*`Hkeq6qqaA7b`!SDt],g_&R'N
9+AHbicgp5b$Y<=y'HZ_Lj!QV!>Dt$vKimi9=khsnScD8VEvyiMl5<NN>Jdqlj7TQtmq<g+0'prLkdG9zyk.uBxQt/%i:i,&qD*o
1Bs-)pDm+wW?].Q?R6OYXv0@'s~xa:(n8u6W;v!LI8FTxI+4^C(_wj[rR8B8(YO4viXa/6JT!|YcG4o/=AF[nm-V:a`C)Sz-GE,]
y|T<ioK]xCrb8YI+rRx`FO1'Hgn)ITQ|YC$]hV24*'Y~l,3=y~C*Ra>#.6s|1YVB%b;~s~zvU+KVt]%#CIAH*zG5E=z1O%av*<)G
WPCRD|W=lu[bxS$.(-c=KC(h?xi0A]f&vKkvJI28qHx-69tL;&|~~RJ!6;TaC[k:1ckL96)>9a1Ncq>P`:l3n9g+&o8F`|y5A(Rf
ZeE*GeHF8(PlyO5$>e7f`#[LJ`TiDl%(h.hJfjwOiMfIZD:tUi<q`<3j?2txEyU<^La9u0rBbKHj1tfB[_Ho2=W]aB0qj^/:9@X1
FzD77Ub;c9$^tkoD-<ZiD^c(@Ax<Bvuq/k.Bw0[8|gq/On%=OWI7KGF0P7htC;$l;2h.P?zGD%b8:;.Z~%+F-26=!V'P,N]*-s6a
bn_EJRt/xT8&Y!~#:#12vkf9C@;acisHQWRlY<3zX%SNbS^HM6=2lq868XZP;Y]NPP[lJ^ly+|f.8M4%[Z`@TF81fc/pVE%<_S)E
@uPh.#jX|0bi>V))Q@N_pUe[X>5UCl'(cp44y4ZpbiVEATpZl#-P]wVicH!=(=_$43:XC5DaG.]z_l,~teWsJ#(m3d=q7?_cjl_;
mmBLRU~!gEt]`ujPU~=H[|c?dK`9Z:@I/78BD5)QT)Oo,I/%tS+)bpgriUih@|JbTnT0O55sG9^-o/Dm&GEM49N[DJ&>j~poU6/d
ML8b+vUB0Oskw.4raY0@i+Bk'YN:~VM&]_Mgi7/vC^OGw2vk)F9D(/<^(bSUZt$T!tDoQmgM7/N?vT@C6EV,6w_Y96Qm9Z0LsXHP
UMwETdkM$t:wG>Gt~N=Caw&S*aZ<j!-?)KErPT1u0(8n8fYn?sHs|I@)dP9lk6k2)Fr:*TPH9M^lNL6n#:d.*0rpGB3f$+H#'-KJ
T%-kU6|uN-ZZJpnoOyh_XB9~?OWbms^'XvPtYd*y<vGwvFUr6gmpQHzTop.WUMhakeIN.S~Km['[&|ZS9yeicbgc%/r;DaB`Q|Ja
=FzbdMEQq>PczCqpG6CJWvcnI-Kts9X<jfWb&b!JIG4f~p<~FdOSLd6tq:K<<[cc'R++>^O'Dlc9Pt5aV4iDi`&cyH,?f9QOYzr8
5Jev0:SY0m$h)IJM-IgK$xMU^9m;Wo00ZTQqeBtR1aR4Kedn4xg`JC@5dt7B/6WGIJz,Ff=+]+$b4f,@N'*_-E;Q=yu'lbO[=J@r
c7`nQ3:*f!e;@jRjvY,MfBAn*17WUJPM[h*~SzLLj:(:(1|$IeP,FKB*F'j%958ZU^oN/0^XpDtZz9jOcq$F;rI'oG4_`kzBIX^&
Rc0r,xcH&FV&6yKZZ!dqrj|N@=rbbw~5E=b<^>c!P;b,Fi.)oh?xijDOy:.4W@+>p:qZgj!Pc=?p><kmErak+JX4X/kGOD~Bg%5L
`u>/Sgt^eZml+)8M]j-^8:f8dAQ)N8F^]y$qpP'DizjfSxaho4!.CbqF;SBmPIXw;IOW?Pg*/sG(H+DKnArV76Ax)U?C5bt1p#,h
&Q-aF-y.oK18Vp5.R;P+fy6qF,MeAL(@Yu%M!C<!|i$86yUq^Gwy`>|6@<iVdud4P^g)f@;W[uu<.1cQ3X|6m;hRXn(^|AMlK^)x
~$KMpRS*>(T:+OdbL+Q2fCG|[G).sSF2a=Lok.!i(+<CV~/g1GnXWFrc;@,cz|um6s[chBSRirtHAfu)~Q41rsAPR@d$ET%RQW*%
b*VA6>[qq.0O[)l|i~RuRLKprAn*t6*~ZrAB'h4J=.u%-;j#?=GiQK):MC0E^?TsY_fQHg6j@u<SI3w1WRnhx+wgCR[%jene5@XC
VG(XTB*Y:%3w2RTvJoBn9;BBV!Z.U.'MmoeAwYVf*!!UD2`exQ4@Y[Ms4>hZ%jqyz@aB5HF<DgfkI.+2?Vt]:QHjU$nhUZvMj(_b
LKgED$UpcGT;k]b%jJ&TJ<|&$p3y>[|3[K3y11@INsz|1eXA_o3PV3at]45Pcr$N>7Q7p7?MG@f-vY)O0$+/c!v;m1<.qz3xMRJ2
j;N)-F_m_U;[ZpX2KYN>NY1yrMIpV.dLFtQ!V]'|h*$!t('+,OpJEm^)d:xi?sj:_kd&mNl[O3KI)Ofg|+rywE-lN5Qj;D?Ih+|3
+,F8p#m+B;(85/w+*WL[C=pkh;iY/p7az/`D-65lsJ9FLKu%P_%q$c.JaG[).wZ+_WN7;]R1gFkq'h~85wcR0(/wpn2pr,al.&2)
#/NCDENRe<amTlz*|S''A;(plSLNP;_`t@1Ax*Ck%;zK1wk'adU]GUHaw|M'B8S^U35*CbyBap3QGtdyPGo,USnye4lO?x+?+MV/
LoqR&-O%8Cd$sge$@JHa(Hn1>Ju_o0+*%Bgv)@[%zQl^:cL-cjLk0O[Ks5(K2GVPeB[nf'[ob:/w%t%~(e~2Onu6C:746>mYX+,Z
q5g||nA4#'l^;lWDj@;ky6Zhdex&luZ!^H.YqsVA;>YMa2Ud[Tq4rnJJ#0Y<2`#@%,%Y9!Qc2!%Svi5$x'dlvJxJ-Y5h*-Z(bgTQ
Qsd,)ArqL=n;DsZ|1yC8kIfnOFA!~x@T@:^'rAo9S82A7zAHk+094F7je+O9[<e[+x|1IQ;Zl@gy^EfKX(^WyaWnSg#V1B60IRtB
w[^~/EYeb|eC`R|&lDk(G*AAPMpIG5ase9M>EQ@6E^g+EQ(6dI/'9m4Kac(]J~FBa)C:qRlnN4(=;@y+qh!ronLw3e90/3(yDUtg
%8yW;__gzFhQM)0c.X7BQNb6S_r_cHg3;3=yN^@)'t5P2t3(MIkrT[.mV9pU-XV,epo6ql_Quijzc>q(&6IT&s)0('SLv&*iB,de
@U7m6z[%fjB0YhpQ+asnUiN'1KX.`I)v7eD:ux^82p57!:AVOJSxp`e$5-beyHh$d2(LgV>*kl];FVhSP[5jEO6;nk76gYJfWB`L
|G/WiNCd3U5-&J~6MRte:RYdzKwOhsmtHoLfG5*,16s^[HStR[;lCM`#ek=KWPc>#mI:W,BNNA263vjJV)GZEK.?90Bot44+O?|c
9Nv7+5nj|+T^,E6O5HbiFRL[Vqa|o^D+5zp(S&)JY2lpv]$z<mj7da*fn1zd3Qi4#)UcKtLpJPR0Jd3[9?:B|k)T%yq!oLhdL>nl
ShXc'R#j!U=iW_#&VX'U5hv%NQAJLyr^v$x$$M,Cs-GA][.?`Ve(5n<e1^gh(#MN5w`n(78zj[0p++/#u>'@S='!8^-S+|@EJB1_
KiW6!qhS=-i;x1WQVA*WwlzlPaH'tq9wD'F*:X2fqh(ENDMA;Z~kr/YP.:XsMb>Tod1qBt`q&'yL:q.(e#0QSdF$SDR7JbdC|Dby
=9;m_K'*uc3,'vB^j(@bt;A!8WL%3'>z2LwiiCCwm~QVTVaBe$2K!aPVxG$.%&v6ta-KT4YSHkQk;&c*G#w7bmf8F(;6]5^[@B|@
o.prpTbd2f+bczZ+dB@V0Se3f<o-PyYFkGtYR!zB,>nAl4-Ohk?^l15;[R6e|t>ft~zzgNm^fP?rr*LEW'/c7du]J~?<S?tK&Q<i
Xve8iWn^w,,x*f`KU[w^W3RzTxe[idZZX.)t1~i1s^xVIvJK]C<``_quU<?;ab&t!;y~&//Z6dMg[?1nDuA~,?iTN`]f,yc7hNz>
ui=%fffa.0z~x4.qx1+z><9>o7vJkE>oZGOn*C7Xc:*/o@+,6Ujv^zU^u]'ZI|4Ak3#Gzf_#kWa2~`K$5*D)do3baE]Z'Xo^qZc!
GcB7=F[+FH':Kca4wOmluGW>(.W$[lHE:;KT35`?=xcI%Vg?7*Q??Ue!Z3Lxj*<d7ZF+R8mg[&U(Rj5]_;?SIbiXMBaNvV7.e!(f
pQ8?QrZSjN+_&&pt([4T]b+oTeMozp^GxICE4S_`OSs2uWQfKrG9CS+@iATz]nX@V?2<t.r2MB'rw!&'>0nQZ=fYTN_hj8Ql>iG>
84I!*J'fG/rrCXtvdw8.6t9I-Gy1&],)mS8yW8r7SrN^dqN0<3.%#gAu/Cyu_1zBamd27l;2gsbOK48Fvc?%$,6_+-14R~-^e;Td
P>CgXfgPr[^`R`m6sB9i8RF(JsshxG%T&WcjhDIkAofUr876yll9bT:TT)NQ-0[h0ur,OsRs1CQhpZxe5G~:0?qZem3/k:]qz>|k
4wu@in5kCK,XHgTUIhOoG'tg-;vrCsH`>H70Q_5Dt]NwC#oSj,/HOmR+h7NT?O/475Tb!wxu~yZq&N2Z%U*xrFwPe7xO4o!%qzCw
@4|<vz7#-p4`4([/65|w^U#$22aF^PYdsc>VmGpOBZ@9n&x_l^ZbtU<3T3.(vy[rezK(HAqKB!;,6jMac4#H'VwbvlGE?JT'hlH[
;h>-3<+*vkhr-'&MxNjT_|e%,z).jbwE%G2nOlV(Gu$_|E:uCo`,>+|mz(D!f<SE`l(2Q@K'#kFE|Z00p0,&2_lFDt&hRia>;gp@
,XHX!,m^q=Q^H]356)T_RpBl/S5ky[zzG]JYYsh[9X6-*X_Lx>QTMEjA/pK2%leZ]SW[K.TJ[n@Ao-^nD5BQmu^4B2V;ezvmmG7t
8q:<awVp]O2p@l1)Gjd]:'7PV4xhYhQ.E7#/cffTTep>|0&,y9`-~Oa/5rUu=f%p+Kv|9Bb*%3`M3Kt;&AcvKoSR.I%>y@=iv~@G
TtUks&Yo9pvCl,Strsl0wj%@Ql!w`N,swTDB@ivr:%F:Ay1A`Uv*u[*]Z/5eWs$%8bltL[S'FCH;Bn>:<t!okg2T>YaB7>K3!^eu
I9@ss=Mq6~u1kPNc'*`lNoD9:3LMKmpQObxtg;>gvGg9dIs4*$icpYn]fM)s>M1!!,Q=`)Z[%HX:uFV?zoL05V3|Au35AM,Y#Mk'
&:oG]3(rV,`lmcBNAg4|25'<OrA9tG@~UQ:xht)5.F^4AQ`5jWC|5%*-+z;ShOxwaD0XXYf80@wFs<GbuB10j$&Q.k%U=hb!X&OB
p.$3U]%yZ=!OKjBza)'&bheslxruYD~U.][UvD~.OY[z<&xy44/mB+fs5MFDXi!W:&U7R]),f39E~>^?+]3)=x;@BDAKB*_L)3X!
vhs?&[*WB^PItMPmvRbt((^`P?'ywD#40rhiJm_1]Z]/,-y5?SEJcnbv(fp5:1~:5bR$@c`Hm5%RrqL`zC7o=NO|=X|_?Ht~K`>x
T^:Q7T]pd[~4wZ78D|4ho3S)_I)>Bb*euyLD%TxFEz)<a7?nR@Kj3BHhNG?_<^`mR*7eP7n+&7M!J;Rjnx.StlAhPQM3Ev>~jWnZ
Kd~3NXaqMF'g-K7,@u$]8Q$+VE(zHB]cChYiT<PP7Hw*)(%@9M;Y'/0R$AZ'$_rVaij#NN!z3G:~7#CFJ2e8bD3w4pIS,eeK)lB6
jo/3dx(MB`A_cYFNmFLd+DV[n[jF&4hkpF?k/tc<bowi=(]k_W(ocu@zN#I+Rs3R0M=rb-ApV|zVfjsKl+aD7q:nf6*I_>d4<68~
4_c%3')Sf|*D9yPFk8UL`Y`Sa]X2B@P-*QTa=q,8wlpRIE=I$;;-8/;3&x0%(U_lI^Sn-r(x~*>yg:`#7uqmd3AHNk%3~!m&'1mI
15RK5-q&R@f$r_,?e=|QplGV+mUr~*&&xjc5!<1aV?$_[W*$tHEOQd?:;+?yqSh?$HRtytLVia*zerM')[y'VX:1G3lVlWo[)sPq
opbhx?-Y(8hdkjj<MM~io$j5@=_M8D.pODCMj3(qlF|=An>O`=rLPcGQrwsK[Vvv?d:VU6UB`gZ9|PJ=xU!4W*sYJYDz?9):erl4
389yi6$&#fuT$r-V_@I+w08'2IBF%k-h]CR.9GEfI*g5N>]Ev,n8M7.qVrblXB1)^I^y=dcP7&r',KeyXb&k?193&*7sorY);2st
Gh>PYEa<5.n;/eJ8f|+[npm?sv]xaO3|YncV+:0Qu?R>ma1bRrx<3Z.&PRs>iomCP=yjFgG6#%M:vwNKIQVpzcnV]W[*i!8.j*w2
01?NOW_H6Xtn+Q5_zy);O^?xZ<NGO(hkBea3FrUOBdV`0XQvp1~__^!5%!$@E,Kbg@00=L7<m9c4aKT0/Wu6q%eq?,|/_2Ggnr|l
m3Jgenquh$fERY>.EVr~n_%8|[47v`kZd1Im60t)CjMe_15Ytis&/0kl.[Txgvv:g&QVOy0q<qf#*inH.9Z^/|0.E-<#'ttdW+;<
SWf#x9-pd@IF:sx^~the;sW=!CIP<80~E7v/9YgEF?a4&<_.a&E(tzwQu2Z`nz:t,r]|L3&tjrkKQw/%,?p@3lUD''f~p#Q?G[ms
upr^sc!/=cwm:auXh<[b;E-?TOu&8Lj:y68!f)/$nH2zp|R[hO0PqMSLR^%GMGmnFe9M0(8gq4r579QK7rX=6rxU)J:UStJPcHA;
?f`4%o~F@l+xc6AM[(a@@CiS&6;ZVsy`UZFu0gIYyh`MnBINPRyvMrCs+eq*b/6>]]rS[_0j@+r+fR&rJ=7Bm+#bQB%XeU)^xgzy
A6BNH&4hTN&Y=(gdaUr=Mg5In^3gSgVtj4.-%_'^#T,v[`Cl:j)9z<TrkApG1/tiCmjhb>DvueT*8z+=Y;7X<t5tb||l@a0-]'9_
QOWuI.I?[x6?~6tY!aYe]j!gVSOu)DBh?lb)zBu8u4,M=^Xja!ak=9D2LLXEYD6DqyYMdYGAE;ZXSnD),~v)_NiBj%bNnF:q3Q^q
bI=2P4HP;;>bHk%t7=%NupKHAi6?k9H3b/g]jp*j@%+idCkm'f?D)c4QJY`[`T6`sw*z[<#DtVK'f[.HnOMxg%LL,`y|OKQPpmJD
4tMc)#sHT2Njc<=>>%C>YNWp0(~pXl7T,<uS9.=Jsm*OXP0Vy)BnZbC>UkSX!gGxcAni@U'l(@.!b]K%1='c@8=?f.d:|4^E-AZj
gJDbxn&'i|rP^Oip0#7Gb'g>+DD0e5Z.Gt~<#m?=qP@])]9-AN[-)Vmf>[r|JvR7*.LeTj?|AURFlEA>~B?[wPq:?-Q,'fsXI?]~
|4U_|.pErZH3p%lscsBg45%D2[HT'OGr'@X9:qu:jio`u,(kJO/Yn<XM8#lce-?THh3J-hb-+oh&fhlT>YGw~*q'P;8*lD6l0JJ<
_-k8umBLVJyWYWEx(zCp9I+zr_Kb0=0X$L+C+Z|nDDr.G74$`7%r&b3`id7f&N[r@<v*)I|kV1Z*GP3C4/|0i6hA@W0dFu51>49X
KM~Z7A,Ky/U`62OX8tcM^=+]kE7Zta@s]61fvY0ngS2Q`<+1r,&SPYREtI#^tJ2xta_*c7aWkxhocId=BXpb5>0/8I?&Bsy5.-%i
i5jl+RsJFhy)imu(a(s;l4_u[~(gCk#)dvw96=.j[)g-/bx!dFkmz@4I/1kQWzdk3Q~nd14!^t9,SvWUH[u1*>~yZ_6AULPEe;-b
CKgcGR#sm@LsU^ht;PQnOY5lgC,T[cV$Ijy`XA[fYTGBUNV!L5bQIFt?x#WkQhDNx0,TB:dAMZH(%@szPkX)kecAPr$_C`vZ'&af
&FQI)|`iDB7xEE;ChkWmtI-W9nd$?-F,BvKDCbA>Rf-3')J2d/NkEy=x`j?a#Bu.SFI#vHci|/,T-(U'3>A=[FXcH.;'C2|rkOL;
Z-O_YF)t^SJl^h~a=f'dDNej@5gwCaw4<!krLna]fnr)?G|W<c@j&i~~;g~X+-R>t,$@(OM[zHGE!q;T*Nt0sX#-0_hi,sz:(D4*
UUhyb/d5eN.w^v]%se^y`i#<w/b]+_:[B80!(LT.Q.!#mez/O!(.sfE&:3;9nc0TSxr-mztvG>x7Zf1/ha)J^Z@^cCY|tj-H9PnE
`X!pWNPd^66,fJ59z>;X1Ts#`I7Jhus7Y#Vye>OJhIJqak14s6brXdSI]yhd#:*j!@df-OdkhMQ9%<,+=t.)On!Es(Gaf#]C_Sd3
-@y(^C>eZ|0o)1OV$5GItlv_A#>TWniAO)I'Y,PU='iWwA8:Ua)m:YrbAi%9m)gAvRiB-!#'2J4GEbrQQ]oyFq(EsaA4__IOpp-(
lf)a]R$YNucft~e4?HzRU>&hM`[&F+)s!R0?3:D#(P!8Q)8IH$LCpmEpq5-p6[nTJ|voNibMkCaVXI/Z@'*0'0D%C^E$B,h&5kN.
;.-D4cV:_ppo%OYw!VpZwvJWF,'Se<RKl,D&@@?]?1;vh+^45]z?Z+uglGcD?*DNTe>cH/n+9Bx4^[8HXfMYQ(+i%?7wrn-IKuam
R#5J()izI@|F;IBp6:h=.?mlkJ,j$WHFkrR6xUE*OaodK[qr4(:q[n~EA9as.7ynLod`Vj<lNe~hI4N!%Hv=msrXJIZXu9M^&~?k
E:wYqHwj^q~,J_Is!a.s83jl7BdEMW*-28PFsfqKvJc^p^@;@1,f/#$cq8y`OB3Ao2t.lM,5&WM_HzC&+M9W(#]64,F[.pZW#7m#
xfhI1ou<@nB5YAelJyA'ac4hIj01#?#BJ<cN*4[`.KZ,fZ2lA[MTC3,+'Jy'o&0VL)AWwzD]M.<rI.E3WN8rA+S*ea.-+X<@7-u@
lBh#)9ts@x*MS&c![3%sT*>hcljFf]u?7wMUDtvFc%q~&`@cda?0sJEB!#&|O<S)t?1Pt?ocY!5+5?x+yd*gm9f>Y9gPAlfx+wrL
)@2)YbL:Kh:k7;?TJ%!m8t%o3<VjLaE&AhXC2,Zh^~~Kr=D'$m/LhAN:Sq`2,]ndIhKSUcqJim&lukMFq_Rr@nZY+OaCuT98!m3u
s$w6TXRX^^~bn`C6d~pC*nICxFqOD1hhp7O|N|g0@;07p1RZoqf8sKI_f|V5RE<YuvP8@-W+9tw@7c.i1(<#?khs3K&bf/R+e`@p
s<)M*^%aC^)1r>0^X4Uek5rw+eUx(?mC)+Euu:!5Xvp*i;UpLHZ:8Z@JoXM:;%t*OY2v*b:iuP|cGTmyrRC-SDmsRC|K<!GGZr.p
(&o[^%|uoq0gxT?4s9PFJ&T>n^NH?w6T06HaK[<|YkMc4Q$*h~'./j+2WG1+E`4U2XZJ`Am2Q39Wd&hlujizhW,4joGVVVOPr~u;
1Ol&iCW&GlHsmj)yA+zcs,jwyBE49tcH2R+r|&2XNNsO)NHvXI)(JzeDcKKmoI$]<b=tGA~xtsn9_a,-Ukz.80rq+!de)!dfQEw]
nP0rX>f]-U(P<1CNas(6tNa*i&Xc2U^q,KduN15nq<3QVLm#V+?Q!/IkigQA3xR8i;eoNgEPrE-[NpwaEbtneLpr3wk~hz,N2P@$
Ih`(D@+:hH_SULUh4QD?O@!!!3i|yMSn+Ng8gtbrNa/(&+#M3WJX?5VE=vQo`yBLAfN1]BRn(lzbKBmi%`k$r@r?s6?**CGB3Nds
CQ$BU^Ew5Z/~.PsO;X-N|eYr;/d#A1w/`HVpA^^xoj(-S:Zce?ybAjE^i*Q=w'QVK&wBR+_awTxU~idX=R;v%HYXINabtJ7;UNTR
~!0>gj;9[)(M2%Ix8+TYhSnj$lyR/r1+P8Y8IDPlbP@SbY:IY2-xe9/)HwB&?909BKPy_UjP?A=V&$;oL4?i2=hDidg5/ly87Qq5
k2X9XkMq!'yxIk*$F=C-&RZ@i(kg)!%Fda.|++G28aeAs4->GZ7u5>V3#yZJNQ-9P;`?An+.eG%R~UCHaGb|D(K%>,Ky5r(wxUDm
Je=Jw/$Uu<gD|]dLM[j-fI9w~JQr(E6<`G,V`nqSJ~gmmT4K(8$D>Xn1z,y%i#:&;hP*j+Xp_5o3XHBsCm2~lk*Fh7k6p*]&%7hb
C2&#$!5B(unfk;aGkBgjAN;=!$f7@yuI&Cl$W`f,%0YtiG=pan,T,Mq3J~k0=g&1BOsd#y@9*RUJ8^''C3I&qRBsp8S_CM~Q<f59
*eI,8RZQn0zO()DcO&*trW7$FOthD9)JH0wsc2[;i4fwn`iaB]4f8*/7%7|uKTPP&*LXGN_kydFXZ4'2y~E+C=O1r$N;*&Ehyei+
fGgm1MEPpl3FF)8Y#|6//9B+E0W(&NGv1K0R>=C^`vOLY3m/',=!>TXe#c%m~iWOHJo+LjuD0)jH-EP|_?'._7eLKX32-:if@Jdb
2;h.>kIskR?%@1i[h$nlnNUWnp_E0mwg%Y8&qC~ovL:b0x-(qWb/H4/[koVK*0+D-82vSe@-cXhP/i~=N'`X^&GjbHMuX=dgGzA5
XBCPZLf%je->6EL1c=KRQMo<UNL=A^A9?7&m)`_UU>!fI5M;uF.ygpX<ZsGc%;;fQ6>kl1`:SQmMfQ3Rz:[@J=bPJc=Hil]`n.fN
P^Y?QcK2W/q^LZOyQ,x@')qDbXV%p%~mY=%*;*#@d%BK4J+wOS'fyAe'3&G9sM%XgNfw+WIM5[#U[st!_C$2eWkD2'lopG[54RCV
lu>124~rS.g~6gmHlnK$Es69l~5MS5TXQ!zW]yTh`yl0C5X3mGqP4z@Aa(8K'btRDA8tYueGoX&Uzt0&aV-bk79R=&.!I/1T=jr^
OVC>^oxt~AyfFS`!><rWqBvaxlVSNb<o.r`qrNtE!U$M<=kqfGwY;BuBPM&`mITU@`h0gQrYe*HSIU`8,~6Cmbe<%a^Z87^.k1/y
#;h@$eQola=#S3|X)]4)8S3dj(h?7kw]n<Jwov.@42t_-h:JE-h.cKa,3].r1$zlmBO>1RaB?tr&0w(#I$23Q@w3tuiw,FSXwdy]
I,:B6;y!.il:vBQ~FuN|M^]v'MBw&H'#;AYK,m~z!!]V!yk`hU-i_&:9UD6hm(MhqdkmNjruj4DG33A&G$q+3J4ittx0!=kR6$8.
KF!G]?+Lc4%s($pU^Fs75*9pwq;]gQUcX~.WY?DEK(.k3SV>#I^Pk,mouX0o>=3%'2t12AEhecP)c<DOrr_mLp/>R(Ny$BYR5'dm
PO>`R=ZCQm.;MD!U&9EM&~Z/PT-_~xeDMUA^>t!DqK$L-%ai?@[Olm@$k]Ste%Y%GAvx4-]%K^G|.*[aJQ7|NMncT-xBI=AR_rG9
~:d$hiH=1X4j`Pd`eAzkLuuchY>6_AFCL6&#k&xay2NQTT(yC@,9x7!GMUH]d8Ga#%OR|_6/=?2he_G~sWDOy_OfJyv_AOnK7[V]
Q0aJwEGC1p];j?Injns5!T@^!3M19rcJw2kVB94I~k1I]#-em7GG:omSZnX,|,y+G#Ckdx&0L0;$lhxnH|bs/e|USw5'>8hh^C6)
<nx(S^dYF5.QOR+nViTOS%mp$P/x-=!T68D%v#3bNIF_7?+Yy6'sF]/R&mV_2Ts@87X`t_STE2JbAq_]g]tXocqTkt+*!:URz@Uu
aPR4W<iWC[J&^OLSwKV5,2Mw:mUFVADis%*^Nur4%9+(i,cZ68z^7aI:IhW6<N&dr=jt9!bk4=T&2]sUN>%*Sb=#:&5d1w;ch`4-
q<K$|e]4|LreCrhp]QBLtm*(XJ2p-(Z|Tn69eGa]Sd*PG!0Rq|Ok6(C;J&uYq.i@YGl].t~K?<_ldrz^OpUBBn6o`&NDPIoq9XBe
5QF|QQ=kp^8sx.3:s5Z(R0I?oeclO0<d*SszSeMfK1#gdJzH0KTy=GbvjMC?Kj2VF*$b>0s0*hnXg2E([o9,Iqd0|gw&V~zj#]!U
DOy-[jzX#yVTq6#<1.ZUL7H[gYAD@LX*/b8&G&R;$t<8^f*r$/ujbTi|n/;##fG>u1b>U%<,M/J%?TS,(9<o'pR<9o8lKT@7`_|2
Wr?#R5$Kt+h'?/A>ubc%SgTm3V`hrZ%>uHmi2w5+5cd[.Fck_~Xn^%uj5v-AvxFNM(5GOL(mv[XKhe#4Xpe/$I-`bq@B/]#^r9|p
S@T5gS7CwgvM;]c;8dm_!g@1liySp-U5Z]Wz^w$SayZg%vL|rdmElu-F$hl2o!Kd#`s)_jE<GQJYPzjdrZ)Tpti.>@S^jC</p!kF
O_,3XKfC^!~sPU,S3hHieL!NONlVS%i]H/iriJxUq4r<g|Ekllf?zE-T84zC=pqQb'-pLRM&E<pfgfqprKAzaEL#t7yPhFkUHi@T
2E5$`XQscnbpl-q|(LRIn@Co|2twbMpIrL:U1$qT=zb~Adj8&CgUIrtB$E2z]-*ZGfch<!Gx[nw((Hk18GRby8tT#7>2$>O2|Dd/
D?o^O#ex%vdb]sRob(wf6w+7os>8iM5I>ek)kNPe=b_SzM~9f6z#/xjGy5~H0s-SW?vrR'17cSx03|HX)E)@$(T7i?&gaTYAX$/|
(Q-;g!p/~5;bx_Rl&By7b_fp*l.*]KK^#?]=Z/)g0~8y~D=1:l0R3)hWmxYRO6!0(taRRu:D,NBpm;y<QiPVAR-VaaK-O,~$<-`.
?wtgZG8]H.aNxC@zMd@r6*8EVR!ycM~E0N]NNyW0@y:|Foz-PIx,f7.UTYC;IM84(~6yZDl&WSkioT/R?-QbK~1mG|FsdgNkiOM;
(b7<*,P.5jQwNOdT36iTGE54=oky#nmz4,YYwKjAIuzn_iEs~ZONrHRjw[![yUKySvR7k.kq`TkEr&OCY`G+wa7VS(.~jLwW6f)h
4Rl5Bvn.dgkXX^L9LH:U1PubV+3__F]=/br&.6Q``+@j&a~J4]!Sy1[b!w_A[bv)HyiUZr@D[=z>jdz@Xa5v.aNur0O>E*Ex~qZ/
mg[xh/e4Hdd2Cqdju9-aziB/jV20]M.<5ULsOtQTg2]xdO[@0tDs+gt?UI3Gqq5SN0WwFxY9`2oj)#~S]>^+W|LL[xUK),]*f%F:
.H-C7w+jl`Z%BE7/@k@ZCe+^3bpXMQ-nMYVdSs<(DB$ur3[CWh[N[Xjch(0p,79#-y~f0^CV_MJ,rK+<NN<M?)Z0#X)<(2$8x>oc
R36TqGc4u4`z?jtBq$MYl_4+G?&kx|g7;4Wxn#bm:)#wle;[5Hg?[>M~^&D#U#RD7*xffvgJ]<JbUG)uL,EIv4rfb/^6~mR?<e|X
paWP2&0K*6(&+ddw0EW1cNa2l+Y*rC/LAPj@g8w?*M6@cq+yDz1Dfskr]]'P]7.2lP,%9%~:DLiz?!|<|6=x:szj2J'Aj8$uoGIq
6/#<VX=cJ5.r[9Tdne<J;&wovM4!QpG^!7'~3+)j?5<(d%KySe^BEXMI``HgJIstE8%oNf+-WM;AoxMr?m^t8I<ZcBywB`V#Ko;t
`#HUboyo:2`uskPht*<rg(WsH_@GJNBP0z.m4_w0svk?BLqm?aYIEkaJV!&@)L(pVEa4+hLI#3(:8d=nEmY0>|1cMcBb_)0-Yshg
:3Exlhe:>udi5>EGKnV)E@v(k;Mab%BHPLNTm#v(IFX9x@Dl^k^~U]3#U9PpB>d3*4`n/#k[xu._?d8u_%y!;au$/<RR,d]Lp+!c
~t*)MrqWk@Ix`=.f1`&U#*PQEEqb8xI7(]y.Z>ig[rark,[`V_1k]Gw-Ty<fg)TEy;5H8^z-itBZGFv4-z)e!qF)(?sD^iggyMaP
Ynsq8vPv5(?]|w@/EQwvbhKt4>E+`WG&gF>!yLU.g[Nj+Yj$n*+lW]P13)r(^+_,k0(XaiojBBOZ:J`6IGYQLe@nGdR_6(#&ySY?
8:tTO3(J<=<o^,lOVHYJ_oYrZ9zn+4s9^0(>^!kA8u'tlj-P!ZXTrlkWvH!pM7;K9Oo>cB_F%iD|h[Nv$8S%xR<*KcY5jA[Il8+/
mY,CPbn1|N9,ccS'3.tW/HtpTu;/Br%*%vFLu#[1FYWJ@aj^3r&c~ba!XHYu?EyxwLR)FwKW,vy_Lb'Y+.:[OzX+rMK4-!z2snUy
@2hFlF1/(dR#9wMP'>gW@@Im70%0->ASm`(3HVdsG)gVE:k4j>=xc]C^;:3a|^0~ERYfa-4/@TlcG);*NJe&`=HRQSIENmlG.)po
|2$;CBDg2+mf,'C*L7j:3zvVib6qeq5c6d4fGB!Fd4/<``d-v?n&~Gi]D:6'894DMIQbM_QrkE6|Lf^V^~O[N.r(!7q+a6xy[4Rp
5U1&>|Q'vFpLrQ:)^32pwX=Ax>=N;hJs_x@f.'LOS/T73#|roNmspPofX;Y%%6)kI'e>E@L7Ot&Yd!#yV90J6DE'U0,MY-unM@?u
L,Renr!.8<`i#%M#&paH*4GP+%:DU<4_%~gGcwjPP(*C-gq_%G!X*fPhy/I,g9r[-PqsMf)<l2$>Junn(a<W?0Z8rzhyd-2>TJh+
m:eMBGaEZGxS>xlysRd'3||jw3DEReP,v=SpzK-y.ZB-8YuaoVo0DjV~XUZzVyxt9YBa.-1%3VLyq3RnNk'Aj$^*;rA?ce9<m5nE
>Ztx^z%]yRU9-h*8NgImU%ph1AeZ*:?wY>r0rygJ22ts=]Yu[e*gosh@`i<|RQ+Io0Y6HHT4N<Bi!#PXo'We|<)Zq1UU%@vba)5n
c`b'/XpH|zw*4V$rR<A:%!zF!OZ&41Z21w[Xmx;AxWM#rri,43+::o=$Pz/W,=63-;V~6@Y?;:X@B2O:RX(Avdjz%9IA0+tSOeHC
a7u5k=S#eNeR:x3/+!rO#iNhitVHF^;%=GR[:lcTV^egrUs&@Mc&gd|$oN'>GtkCkLn!!J>Go@F9Yoc@4];=xICd10l-qG0d,NkD
VR%F1.Sl6N-R>v5vaqGdFV-UqR_K<Y~!#;urvJ/x07qykK+KbFK)l|2~p4fktdusJv,4^~=f(bl$h$jjS.(eU%p.S%p03G@dU|6!
dk8.~~Pvl/7!+oJ6*?ex$1^)99DCO+6'csoce>BVO_2o4+LkLO9t(rX6kbQGV+Z7LoT'7#=peWXl4WR-pSPK>#nwolK|AnsNcGCG
BQ)zy0N'~,ErXo8/<tLSUf%qBx=EL#Nf:]iuw%$bx'?qNj/JS0;Dl6rs`bQ[wK`r?L6c]d#=g>M79uK7N!:9MOjqnRbVn03WW1AW
Il`Rz(0(M>BRop+0a;(PN]$gtFnG7OXb4=9,@Rm#Nm_GhZ!C9[Q.U'r/RVVg<m)wJ~4Ujn8j=Y~ffz=mvqB3'e0AnptBcjGqkwLI
2])zPh4nu:'zN^<Cj+I_+8sgU4Te1+&rrUnknYKhy2/E7CT)XjsIeB>zt_ymix_G@bV8A`|w(<eV73`%h$1+B$VX6k,`Gfa%DFL6
&qJijqtelqT(k3[O154'zSV:'N5H:GrVU`UgH@EH&Df*4|>4Yy[7k9(S<hP[13N2'v~@6xq,t3n0&@kcs~%VSqX`^>~eY/:btD$7
8VZN9g^OTtBkScv`[K>'@o~|`[EYxu:@tlW.a>J^W%Upm`^x`t&>-ZzZZ>=QT[0+3,h_edYLnQcXBaE1Mk5yQ*ncoDgqPRQ*Q]wZ
rr2,4'GQjVY1PH=Hw'o.3;|mrETs&q/'E'OWL;|Am(T>f34nMCt*vV@mTdmyuld<UNQ!I))<j2*bg_EBc7)lTz*x;')+f_[j3HpB
[5yl-V?p2KO,..cOpu2+[8]>XM)ND|YhEm'oNud%bA66G$Z^TbE4at]wAJ6wDs8Do+8xY#F=8s>SYO.xf+SCZjtgQ^M,~2t@~PAB
KEl;mh<(77)Wp%YJ[us[<Vu2LiwC]FM~ts4kw,D](;m2uEEeR.A~D4WS^.<q7VuYM^2164G$W;-2dH.+qu'Q:cqXefZ-mJCs0Rkt
`Zeh$6ki9<oo~8Mnr%C(/]JbR^LJGmcUb1p2IgH/X*+)6zg&Vtv^kvbkcm7=fR^6F%LOFQ3HRrFW4fm0yp)OLkjjU`,$&w#Kl@U!
&#)OP[jBA>;R<RM`%]y'~bTA&BHiaEhaNFPsWr;R|-Yq~.$I`?dw1-q/3I_>cQH8Xz;b:Fz';uf+mTe#hJ4E=f?m,z`YL,s'kKzq
,2[1Dg?'6^K|zvWjvCqS6yqbQ_!<u:UU[iofFu:9g;IQ>EJ'|kzEtqFDNDX~q>uzvg^/f_LZUy9SYSz<:xXu/B'@o7j*OVe.*#7+
sX*R1|h2OBCtNtdsNDp'nW$+^'^$A*@RszXc#zDrEhp5-<+39@r7eN5&+4?lum.FSZ?l9]O].8lokE@9YeL&+MwP9zl[b&.y(elp
P:j.ve7V0&6YYT,fD1p^*$>kqe(|2^wF9Y+f%W'kP,/(<(Ya+U^JDrr>%h)CM)haQ_1JOgv#hqWSe'^elB)<4UCBmTOzcI|e?-S@
)5Gfd6Ce:ng[g#QHvuKt.rN:oT5=lI6VUGP@Z5/xvX'=a2DQWO<*nWwn::vU*clO_6e|>$w9w_-vDB,6%_=f'uTv%Xc>qc:^n[ql
E6rDNzOvc^+&El%8/$`,&0520MOQ|I-CwmV8VtlKRc(da?]Hdy+WLE~>'3-`l7a,q&*O?N~quqf-nbNVtQa(UBzqBEzt;c7I#$7C
b^TGmcQ$+^F!&%UF|miB'EbFB[HyeO,eISt9SVi(5<x,(Jr8@bJ=|mlR([)DS|4C:(;dE=Z3$nV*hfJyyEj('6$D-OJq#9wu5|`3
P9j1s>PlYL|e.o~>wJYGf|W#TR@[|Xb|gA,#G&UoWLn`+bM;!<K:7Q0[N_d?R)ss(5Q$q#%CB?FMn`g3ZrV^auh+Cp0nrkQ0-IVp
d`^U]RxT~rX:J',p&p;GJh+Kx0;s3B=s,'2=52fCb10D!W12&,l#*S$+ho$16JdLATk<o1(bwLU(`PqK=/=ED/322@pU1j';P]P#
P%O2[tZH`&.51pT#MSd/'H%|<W/I'6m?Qjc;(K.++EyMkY4>Ew&`6c+fjWL)>).tdFWV_k5g1LkmO%OTY3)zj1_~9ND7XeJwr|zo
h2;/nnZ,:nQZ.*~24`U0i;SH^KNqmdPuRth$i~SLa8UG;;n|s6+>'$',$5v4ceLl|5>hN?T/F/NHv=D24N%(<.Q]|T+PGQ]FYZ,e
uA_M?+5&AYfE!/vnnNdkvUoQ)G't/C[(+nPtBx`gn<@|&R-lrV3h%)G_gvaW9QB/i_Q=OC:J]aFKHXe^FDP0('p^Yqv7::q3cjSx
-J9MDJaNRM3r=?,AJ[,MQ*]6h)V2<QHk<VNQx<g=~`2=k|>.sf&.4L=$McQ_mi#hUU>0+X7.w;cI_[(+DOEQb#4Y>G4cSDF+9&ff
P?9jobX,FIIbNKbUTUI1MxcNBRn5<~8@aE;WK6wH^X/@p9iHftU~Wj%z8:V#AbtX@lMu$vt&i4=b5,?mk%_OXfFj;F`1yRYGz-+c
0d%3KSL/+C:|)1CqV9&h[Z8@;5_v3&;Ui#A3E6:5MdDE.BnoB5/0?9I.vT'kI7/'%:6&SZy5Mlx<s`retS?C~dV2@@PrQ1>w21zl
[a7aca@*K2R?EhbKP<>ah$$WEq0a1$yrOB9lYIqi8KrAr^Ov!,57qqmPE-B1qA(q#2Z+tj/VYin'YtV%gceGHN!i~<[P:vzfk#z[
tI/LZt',d3/v|EeW.S#*UjQ`F+9:[Ed+nLrf,&=>M'C|bJ)*mRjNiD_tL,W-nm^1i_V,Qk+I5']GjNv5(&[CAbkL_=#2Pq`kIAHW
gO%39`KaX*ih.6$Fb?7a$JpDuX:a6]Yd=/ikutCMmQJnEIXvVdkHfzg;,%|2&K3L%Q%b'w$d#F1Fn'G<oh[1Q9l8#&W'CxX?3HMa
hAM0&D<a?k)<lOvFiQ/b??ejG?Q#:Z|X7Cr,i&gC2lRmZRebZj[O3@cfJ6ds92&/i+/WFxF^n&%=XRmFT?&sE4doAx$6E21B&ncL
xH]cOl6.ZJpInkQ|$/Z?L])Aq28mnAS`M>|~ZE7p>;2(@D:sPOEdui~PG3.~JBO_7(Z8!bkyh6s=!2X;9;Jj=*IFB0!Q,-z)X6Z8
Z-=!`BCr@88#F+$T%k+gKF@Ucd5,u'~mf#_xF=n7ddQ9JpDIyjosDsU7/i>H2%G^dgT@XklASYA!rH]zALZmh>7Q)b40&x$.T^)F
7S+-ScXMF=$x:TPB`XZwpSERyN'5L><pS|R(N9|'5n2:/;oR?k~=RMAQ:cwPL]xtwu(_d/7.*6XqXk3Is[3Ni#4B4U_aG~,IM%XS
At>!P8@fCFiKv-=LRM:&N19Fs!t3w_;as,PI!N)x217tkm]5)qvO;9+2x7I!fiM16(Q]rQAP6!t!cIitw3~(K_~6=$;sY,yTQ~W7
sa<nhvS_/F9>.A^xG|9Z)L==L)?GI|posUsI(;|>$2/@NllEhtB5X:ol#67aOqxW~rpy+Goy0v5Ql1~iIqOm'=!Ms_a6g+02p@,?
1mkxyS0x3^%;[j63]8e>2b(,>:JI9g>k#O*kCa(0a'0Uufy:K/tk4/&b@s/bDT&c*l^ir!4V][,~m=^4a2_%Yd=83Y@]tuodbDaU
WhP#KMcu,mD*lQEUzS3diG6cxoR0BBE^`s94zSra?Id:vfkE'U~OnTF>`|[)C@^wYMe<:O~Vds>kh!0GY&,(rw.h+#l*F+bdl%H3
hg[6$GAS6,Ip,FP0eq@:tF2]5^XY5h<g&0SLOAfj]JG799e_zMDxK-cwjwREa=SWN(d9gk,SoDF'sa|QO~t/5#U)W1/GEhveKoZw
*-BazcmEZ?]zVWj~?lghc0_Mt|oWZ6hfsF=|?R6CK7^g8NxY<5^O@5Pp>MzZI_v>yxS^tNI_25H-cn+17@$wWA_m^272sz#Is/vF
+@5./MId.2'C-m^<u`=~xbLt+Z|ck/s4fT:ek9s;x;zT(z@p.j~e+JtsMI2<Iom6anDtze']N%+DVk|e!mtlsht)<w-m;9ixDftJ
Y=s:#rBu?XVAAI8%]yf?8sW*yD*-Ct,(fW<r4Tw)o@n[qPxN5u.T<pPXII3jeJ6IA2LMNy1TG@+',KB:c3RZz^K@v6%Z];r2!zJ+
l-vc**WftU6SUS:)rRlL*unTZ(!Dr.z?[!_3O9i^EK?mln..9AoqOkw3N$L7wb!wd4x%nG(U`>UCE1DAWoSXWkWXL3l^JmJgH4[B
!5QtY])~.=5&Z,WBNE2alxV?lg<:QX-nsl+,DkT7Pl]SM01D<>IArD9x1$m4kY0/?xF2Oo88p*/XIpgQd/W]sJ:KD:Zwu,779$m2
/kML(?pZ?EH/`(7+?S;;p@w[bm(]dt.$hn~V/eZxWW-+zmtDQ;dm_tNR#J-B`ffa7j<38o134be+5)kfbYCY-P8Z5YU_&<~NY#L-
IDIKMLjmPM.3DrifWu88Y<&i7?SK^Pcvkc.EbR,B72rv0kV!o&rl/+nkxEbACEkvU5.~ZCpMKwpL.rKU-:xfx8@*7?[*[>ND&vVU
=KHgKeR5VF'V9]Q,[H4;5L=>6aaA#)]epFwyl=^w00]E,8nuKeB(U78*L8EokV@_MyK@P6O*DQ/2!5LudS~0AMaSNUVV/5AU-PdG
HXQ+xY$wkazdh]d6FgOu^fsm&g8zVsO|qTM<eo#x3<w3#;nhOhf#D(G;>z4O+:pQVDrleR-0]gf9^gFL|t9V9jF?VsKC>>ErS.sK
.G'jg^OV-YmHbrYhX-[$o~zp;&BF_b5h>Hf%Q`7+?j+q/W-Z~a->7J|;(tjH'rY@v'u|W4.G|^=Cl8]GTQ/8N,8h]Vlf9m^$7@<`
j4+@RNvmN0:^6FtzPyi=e^+,2w/P:VfpX[]L:FHjX>e1p$Fz$|YSSr%227;0$*v.Nj]b8[u!|8,S+VsSY~#F_:5%0ICen~i`2]sL
6MCxW[_;]s'QYUy*0`KcPC@U5V#ovUgp,A0eIoioo4jy/Fu<(@xT/2TPkK8j17YB=DfNm|l^rkB=s`*>D!&`g&rebF>HVQm$KQN&
RW##fg,qv.Jukfw$P[zc8@#xaiPR;-^PqkZvLQ>05eunsSbU:Axq6`DE<6ptQl$!,?+M>:6=y!0oV34Ci2#w~chKth,5TPCdzRI&
2j3aCGBFs>rC8L(rZKiiT8NYnGd(nbG4HBB`'L)^i3lY2Qat:^Jmv4vYMC*3c-v](S``_v[sQ<V.c*QG|](_!grfcbVy6pYK8sXx
L?Xx;$I~gIz3TTc<]~p!.gMT[Hd([nJ-;/dU/?Y=KfNU&[PVdbb:;U|5@j:*RUQzp5@/eUG,H>K_;[78G?8I4EX)lX>kZh<e02!~
O6:9M=6>e;(W6%'P5BLA`+`2WvTk[c3ab9C.b)&%H|P~wZZ%<+.5NN;'GcMxWN)g,pn=Kh+dHIis9yS_~YABOl(KaAX6(.z.0|Du
',KN3)|^DEyX;toz`]sKm3>&#y1D9lk(AjsKsRDmW,1(YA^3LA|y)L=gC>.QjLJXfqk9k6IP>!`M|0;8uI:r`L[pe!P;ZpSk4@e:
O1Zqf-VG#SiyR@vo9-UbS_Tuu17[lWH6zA-*:^]'f7qH(PhC13e1^~d?c;TowjSwxe7j0U*h?K^kF5FPpN1@r=fB2U6oC^vRuYr8
^g.gaeuoZn*th@8[Iqmktmme7`U6jp;a:<e[RReUrcm4q'%E:!<,*U,Z|b@_PISBvmuF8((|s8ue$$1]DNU!thjjV6klUKhB|hr7
;'DW#'JDp?ETj^aHE6W1o|fEEo3?z=xJejF,Q5:U$vBJVx|$ly3=O]S?`AbA@1H;5f;ZUyE3K<$<=E_FXk5TTjT/m58KK82Sa'3]
~WyeGyTYKfcwIP1qLyfZNqZ^bU%aUjmd^0iZ,N~Oa8b&jr_s,w_fH<o=g#qtn[~ZfqC5hsFSO8rXNi!41XM`ryEf[1Y(]SZFuVtE
.^FUUO?)Tu+;X2QA3.L([+No5jwR(2Mz[s<u28?&g6b~V?t#/+kySFcxGKwGF`(:S6hKDeu~]<GK:jja$8FpWL#?vgW'S^+mi~rW
2azbnB&f%N<r`bZ?*(/QNrm'-;2AP0d.<IX<SCq-1|%1d2uzk=U0Z+7*yfUb`;A+ri1*&$%(CJ1sPVr,-ckL$MVb2>S5jDYyLs<E
k#o)(wn,Y9pS_;)&)qi2X/;bq3m:>Vj~rRfLF1ZF/$T#cWF1f-esli>62!9.k?x(|lmAH99ZVb'B]xeIUD>x0J#k^EZf,YKx)S!D
(/WeDl|Q*Qu3PAuQrJ?rSBo/*EVkK%j1]`GW+Ul(w.BZMKjFC.o-8)Ih;QNSPAx~&E5%^w52XTvLCp:UN:NXq7oekGfssdpgpx()
$]Lc~kW/>PaLUp`odY|&xTe.!Xj*?</$?GjD]a)P'PRxw&,=]StID*d2+o3W((t$C|Aw!~$=;tvEX9P^<.U^4L:m++HAXaR0bEjh
-rc/gNS.MBt9idX;_D`SF6[#wMInfD'H)63nu%!`0reYi4<2;I+x~N#`?Q6E<$Dnd&:E~QWQVlKH^o6/KlFsM=yz_Cmm.&N$^FLK
8Wxo=d3id&C*M&!$L<Dndgg[::fHc&j9v@UdJMeXsc/UH]zM<9;o,9Uopa*55*#'!(X`hJM|wX411`TDo[MhYf*vOZ@pxUwHR_iJ
5.ArY]0dYGS|odOfeynQ8[FW3!rcf4.'e&]d|.:aVT@|xM9y#Z.dd15iXRN7?%Gbv-~(8GPU-uhaNL]e.)?Sw<pK=uj05z+:/q8g
mM8iyyBlf@AT(=Dy?v_'eRUCc))Y%ID<Q[:wDo~WJp9X?7J:y+.4<+!m]Fxu[uWStj*r>w)Mc|@7xgp+'C|hWyzSnFM-m;T[koLI
ek-PD8[fPa08gD.PW(Qt5`/0-lLBgFeV(wULA(/$&xmB).It)d/).UoniM%Qj`)Lz+doYwazp(eUO#WYG]R7*|6RXzr||zxEKyjK
$B[1<JD5En[jQ.N7Tvhp!rO8YZ1.Nd3)K0?'dozIae$<OW&Yc~o07(KI$DbFE.PBu&`IE7<#Eps:2HIK;wHC1TJch%EfjF*R@bh%
OA7:K3w2s@@KBhP5.&x;p(kj<YqKRL`lhR1J879i=no!2LFg,vQCk*9JDz.BxYWR*^lai-_oh:!R3!!Z3yq>&A+Ptpybhq@4Z4yo
(97G^SU>'7L@*FG!CZ9fRt?~$PX/MCQo:$Zim?hKTqLH;;$Q?j88hhj)._b%h~4IQuhTVGf^adgf5h#/,[QFA>sTQ[@9f#>dyXp]
>vdVpUx<^IBjeTlbNuj$<efXLw1=wJT//&'$1gu|G0r,?`>i&8a];y*:mm=tO.0tbMw25YTF0b.<QQ11#K9|7DbFm7lybh.!$J9E
oY['vm[Qp4+Swy#93jQmKc=@%R@t:9.8uZ?u-AaXu^,YsNjZwB)eJ:]x;-k/^5hSfIlm!E-AcChZz8q=XbfTg]%L]J8h<bV?ru,h
7&jY3m,<*<arY7[LqyEFDj)<(G),o-'=f)mP!;ENl8[W_-N!KWRU^x*$~6CYV#X,@E5@L:$)9)FovfJ'c]OG>fmW#Me&~wRoeaiW
'Ki$H.l'C[N%x?6W/ZR9EH5jD2pQdv=pPS78RGji]3[-v5GiSL-@d41kD'-`]:e.N^Ex])#!z3LgmVQGwol~oJ6X:|iu|*';IyJS
bLs(H4G%WiIC@)WC6&N6ZgZ=8Nm%.D<7R-90Q^o8gjC6-F'h*DD)M>GZxO]i=8+J~/LELqt,?.R9yq8i`m-,ZeRC$W,w`;TAlSIH
O,^&EtapI1gi4$BFJl$EppPq@/EzuFzx)50a6&Wd,DUK.cKGtv[$k[>EHpdM2[O~hIMODKT)v$y4eoFy=k(CEa/tz;tY~/2DFT74
~M9(>NoM@bi[P6Kw-i!=3;9T0O|$+=dytCivHyJp,z8wo7oKAi5^#rxmHd+#/N&G'5nAvkk<oC28^~RWP4*/8=2*K>Bq+[S(@p&p
avh`K|>HYtBpEQOlL|EEY9WVoceyQz4,CdK)CZ;40=c#CG=YMoS`fTX34h2CM~G~-s,'N+qp%chA1U42u<3vr@0!jq#Qy%U2PW'H
H!(Q]|NR(cWq%rW4#W~R0r*'EKf-nGqyyBiZ.-=]AVT'_X2OqwY0?!RW@SpRB4CG],3Lc+2#k=G+2QheSPfqds<MTH]viCo*utzq
I4A;cA41?=ZhYc>9X3'ZkSfl8ttX**t<yPyk8+oCx*9%~te.]8wsYLLQp4JUd]:<xG$u|=03EH=OzX(;yvsuWo4jW@n3W|VWVejX
o=5Cr,f-rfO63OD#R]n0dYRATgKln:bE%_l=rX]yT&x$3Thzjp@f5$5:'Iq/TL'x=0?j>9:#tI)bb$r.M.i#`1Y1dA'K6==Dd.vX
Vppp$9[ECVo@m.+DF0t%YQRj+N$+W6kPYG3pd~elJM6.@09ofg*SLdws#<kt5;y52PrVi<!'Y#o`6DDsh.9L>s,n/YlY[%w|rH.S
hTY3_Kt&FXco2SR?mQgCi#(FE:L[XDgl1'S,&~Og-kK[pEYRPASbJ_&XE!w*nIe[iIt0ca,iUK-W3:`/<z^0?u>JD>(_U<CBpqEF
xxwf'XL?W7Y+ro6mR^<Wp'&u+xya6Y!k+m5-]8*bx!_],6&f]W#'PS7&G7V*[u|FW'Y|Ofg8;<_]zB2]6R+5o[TU)K*[U:0,f5m*
a$0/1*L~y[%^#*Hs!#[MHj-*a@ko'KzDB.OHavh3)RDZjHW:plMLhIUdS5Ii-CA|hcngWi`A:K9=LV'cVAlrN|u1_lRK&kMw!7Os
V:u%QS)<?]a=B)OA~-*m-fCbM97QyBj$rC5>z8`jj$WH^az89?n]FFAjQ_pMTY!=:-@,wgWLRI/e0E9uZW`tGRv9wv4/l!z#lQr%
-svhX',PJ=G`A_(vz4kn[<$+|,C%/YKYMl9DW60a![/kM%Zh.%d;e~'6kv9/.ju6O@o!S:lJmzgP%]7ER:5e_ICMtV59JY69FhH:
p=NVz3B|yZ~6orjC*6,]`4z,MT~NdO.jOl@,0K$T3u,KpM/q<lZM?-Dh]qH]kpwa16Qk9q$J[Z3Z+nx~5|uGlFi!)*d?DTR0!J:0
U@jnFv)ZJ2?iQv!4&7UoRBp;6ukvTbpRRyO<Xw(B$'=+c'lcy6z>b%PUn=S(i2'Aac)(Dni?PTn`28Onl^l!,8Vqa+_`lKv,w_*l
dCB1d=a3Ob!nV5'Eb/00>utYa[Y@k[>e9d&s[X0`'LcKrerY:;m![77,|j`~7flzFp`.8D/.yttX7`M.(X0~fEP5T=$p`1^lN,4.
`P?U0k!^U#qW#!ko@&CRZflMw>yP%=h<DXXxhWBN0cok$NI79<wc]~!k-f:v4`S*g@x_~a~m~Y+hi@bCvy#2$xEvNWR|JK7t?NYW
Vo<>ae6n~%v`B?'NVq$ti$sfYza:lj=`ZIj@_rVwHeO9K$A*Y9IrjIcoIaXXcG9DOe'(nv~oWb/u.*Il?niJ#nY'_q5Wa<^@bVO5
;uPd,-V0?j'hAN)Th|7Sr.3t[:oj0Ej7X~(St('X8)W^$P=v@UV??3NGxcIiL=xTsb-n:C5ij(Exg2:VRK^Bsdnw,bkIgEglQ%ER
_`Od-0Cp=Uvc.`4D|r_z?:]IP'M/r+)wk$(gHwCb-:.a1S1EWR:]j`R6yV7w>!pdiES9|:z|dtUO!jcy5X+yQ72nI@]WCPD_3E!b
N)MhwmVEm&RK8W^~.d<T+6T!wQa5Tn8~uTb7rylnG9He>,|`(dv7=yLk9H`o'5QIt(2DmHa]+BbtVT:#2<aPP#J$^,:uKioM`#?k
IjV%XqO6buO[wnr7a`jQvqlkw$HcojZqnrOL+qk.,v(b;^O;hF2b[w;0ymeEC.g_,~P^]=~4W]5x4AF$1S_HzX>kAg88<a'V^A&k
Bn1dxoN1.srd;-['W$GYG8(L:A<X9`'~0)'bIG%XSZ;VR~4,uT!f$VI>AO`hm9p$vY2+:vz#0<L3;3-;6]@JavEPL_Y8^YWV9Y-1
xO+kll<f)ym;o!Iw+98+.B;|O,YZRcgy6dtddvR3w`3KAY%30Q=,m*O&40bk&J~OP%2]z;EV.oc:Vi5,NmYM>l~9BUX*g9y_(':Z
_C`Sm@56q|`y[XgF/2X-k1cf-&J@8,NU'F'kAq$+_TL|ro@kQ@X+NLsB>26y4lI6*Z8i&bl2)?g>ypb~wK)2EsYK!%Lnv_M.O#E>
a:sPV,gH-0<<L)p2PdFWSZ*uBs3l]mWmmBqu%-!:-Y]dHs)peUj<WZ:jZl1TK8`=Sa>t>>.Nr>NF[ecz7hZ0>-96hRX>2a`'[qv=
1JP+#Tn6qll4T]5`#ZF;/uBnoB<7((766CW%wWW$4,@=6yD*5[R1&qVCM@=[a._/.'TOzmg#ttpIu6ln|sI+|z<[Qs/m'Nlx~/NS
KRkvUO4/<Lt5%iK,$G,=Ueim7%i9t:Wh1!_yX0yF(Oi8+6|Ov;55kJA<^aP6A+c,,N%iw(l14[1LF.g;0ad)*RE04b,=@h|1?><!
E8imL,@FDMbF%rqu>):P2u[:?0dgEkN)CZTDl_2;!~|iu>DMdQ<9[khgXDu1(n_[GnOZT`A>MxTFs0NmnA]J&KHHhaIg(@&'%G3+
uT,w?&*M:5JXX_gAS!_S)K>#dKQKo32U(L>nDeYD/+eL-y%LZWdOg>),CR4My2->lcmx'plNb$!Y@kkl_iG@-~?z^c5<dXIQV@g=
Gz.5:O)b42JvAXM#4[+xtO4/)zAz218f*0e9Vmrh5~b|-u?u8q%h0y+x+wt$)@uNS)v6'c&pZ/BFCT43L-4T!<Wvi1<3BCsHEm6X
X,]?%|AYh?fZG_.iHPxs?u;dX&*bX#V;c)y9p3r77;9d9%~:foG%]G=5r>S/)4.w#Wq'b2O9wxV6siL;z+%cMK,(=2H.q|S4gS~=
`Rje8W;VN/Wm!oRg[X.i2`l9bt`d;A7Yj?4vme!%Fm2ZP;iH7,LaYKK(<Nqo)ApiE~E7'6'(A@?zk]0i,GY-[wRV5A9xMKOB(5A4
EC[|)~]>gj<&++fKzMpoDy|L^F#-fRDIQi*!GyUp8Z;e85N9#;o84j>RBz;gO#upq(+0FDLE6OINO]4sahc;i*=%fFS`OFaR%j=x
fAM?A!M?Q~Vnmr.$EgSh6K2[!lxs64F/R~M6Z&`&Ei^YV2^>9,+Ccp<9ZD.x^?D^PT|$!l_]_E8nEQX@mG/W|i,`5TzV5ur9d/6j
Cld3,&?0bK$x#%R?>4?&pfnj.[rGloyW;#RD#1L[=$a3`aEY;mWAA=J,=ijt~g,zyH[?HvK/KKY#T(~KX_?xqegk1n7OE5Lu])B|
T!DjQC;n34xO2jCEpHh7-~p?-mq:Cms9`:2:E34G+$C;L9T:#^6k|v)7jZ9.?+,,#>r82X1pl3q)?6^LP'sxU6q)5qwvd:)ldm;*
Fvg#nD)Z:_i*(DL,K8`#^~mt]RijxlL&z+FmvM_4:K*)_2VHQgf40ttI>uMnMdL]OI5scazin2sq!hUxk6JQ#mV*we>Nw=BxC~-V
$Z#XFRl&*S9^8>0a`(FkegoG62)b#IPa~8nQ<TY]|`1yEIPha6%/n/hq@5Q8l>g@7lyzz@?nR<rR-|?Q!S_dfVbZe26+Rl.([SDr
n?e|&nr:1oCT$:*(8a1JGjW8I>Ev)^K;2p5,+5niVZalAP4I9jC(=7!4$k!]9$lu.s2>Pb+*n_;*apSZ7>2sSp?a$5Pq=?0KhK:d
.mD1I7C4w,1rMO+Nw~CE<7#?P4ogK#V$4P~biEC)&:fk83|`=&nE6Rwe?0G8+T%U/RYh?VFV/|Jna&H,z0ah_V9gJ)y90y|NEVTl
hNr92PtmY-m_[qv'z=1`icLpnt(-2g*g%Itzi:&-:U|w/YvlI!pP-x2wt:]m;f?<9]Hm&vDOLwKZH*r!K3/)_|*G^PriyPs65+^z
aWjoI0oox>1M7gNO7*7@5jmsINA!_x36&%kynT9>.`9_kkA4c/A*Ih=PC=|[4Mt8Vrsp3b]q#!7$aKmTaW.xHML_O~'uY+C`;0WD
z5c9RjL;KygLQ(Cd9q82Ihcxh6zgK?ztvj)KR<1^(mLht)OUgD:wejBC&Cz6.[33[K4VQ>Ot*1AT*j[/3%6;VgVpZE!`PYKrdB=_
&+5(zYoU.s1Bdc0|#0'lWzUI=YKmR/'|@ZH*OBoIW,0@Z0sVJSM_rkEE9O8$6?$=HUc^WG:u5o5hW<,HY;,N6EZ|eWedOFr?SF4Z
z|=a5J)Tz*%>m3c###yE^1qo^t=N,jIH8i>lx2Ev(sPP$|h!jxM)>Q**grMTi=i$*QmTM(R5yP.m;jUC4T=lrvH<!MK$.[Wo[fv*
qf+~#m[Ojfm:t>y1xez=tpkwP9^-,@WV+)ia9%f-_xP$VBzrsF[)Tj,egp=^SM74J*XsS>.|!9OgRq/PtLQ5fZYwGAOG;$qMw=SJ
.pV.0Xu#~t*9hO!,KwPs>k08S-j'h]5*wfI,/[>`+DxRbA`3r9>lL~c>WNKEsM.9^2.VS<tOQ^wb))kSel%a#,sA@rkr.crE5V9H
U;d7f)s4QEF853W.1wP^^S2sxLb<a1B#>ttg$X#qzf^B,|E_n_bPWOQ]<C?p6=JHL+ZZ:4%MYI=hataV_0T&+.=hlGPfyf4(jR)1
Uf>6_?8/mgevo2~q,]$jA:T`WNd!)/5L1&Y+1^u;J8IB(ogqL!tUj<Ba(:8OHdg2B7-Pn/wPQ_3A#<)B=1~5'(qci>k:K$U6S6(,
8Ade`<hd#7.Pu-_^'OgKufHKZnNFW0<-Dc-.?Ca!]mb(iVh311avpS^;V$8!ZKdC~h>R$nU#7t^-Y~'j>5gi|?+B-~_>2]1%IFq`
gVgGkR,HG<hUn]j|<=RHU5nJRh>+7e~YN:G1e.6r$VOP'ToJ21+-_s*JYJp[tb03?E`XWi.5^2vmsFX7g2W90#^6ax!mj1IR$@3d
ZW3d*>'`XH5''c[Npbs/BT*@%LY$PkjPaT9-Q/UQ_9To`@y;Lp3zDsR2t'g~V+:4b6/fsX[:~MJmB^c*GoC-KE.pwKdE$>-=&uz.
%FOhLzSQ|.QYOJ$d*av>7H`AIyMqin$vRQmC-|3k`x@)Tq@i~)~dSBG1rAt~4nKTK,iS30zPO:QwJqf@^G*4j:Yj+is:=,B5vM7o
EE@21XSusf@qX2KWMZ+Amzw8bu?;e2d>SS(9#xcY.wy5%Je=3$u:Kv1an+,5][npKiSL>C2`Lk6|Owk3*Eeg&UYH.ps&7tJ|gG'P
pSz4zgX?kQAIo`4wE__5l[RcCgA5_@)P;;xnsrEx!SsY~$a|^0J:/CdiKS~@8a2$KFTSuo:P@Q!CP`UkW^M&!!3n9_OgSLd`v]Bu
_[`M>!AP$!8/e&yX4Duh|aI$6&#t+M3_+xdvhT,[FBM@ig9v$diUulCilgs/c#@)hs,j)|%L?~B>:7v!vXGEZCGPB#E'O^yj2?4Q
ezCLILb$]mLhq9uB>Q6dqu2^oVO@WSynj#;l+]9xby'y<R3mzc`7<x&;`XJHse:qhb#S$i)H-Ss^/rB*UNQY$v11cd*B,%k;G#~H
5.iBGSy!#+Mhb1)5n_#>Av**wJ3^#m'C&nt4L9)xkLGSCAMPjAs8Di2WniV)wHz;0WVA9Co^7iP&<ThNbY':@skJ]NjLIK*ExVWN
mrxjH*?S#s'Afy5g7ZS8oOsLHb@wX#hWYmeU88:w#i=iqNr!c@)qFRyXy-L:gdbTs2d=.ZWl33~&0VpuxBDzr,etHr1!wn3v-:@n
x?kL2L&A;I?Mp?lsQa!CQQRufQ6LiIk7i4Y%[6@feq76,PkWEP)Ok99`@i0kEvXX?wuBdrCG&o6H01>NlwY:RtuBDmqMulECin=P
4bDPE(q`^fnrr'9s~XG4D%e|:3Bd9F+pJg&2;#/]$7:U=2rOjo'17QO&Kk;Go2.w^P8O5M.hYHmFkB>wfr4QXhaM6DqulPWdO2pf
kf3*m;rg:dzVb6FX6_`a@bW=P?6V&atv:x3doIUu)I7@&Hn5p$Z1kMu(/zdS8hx#biS*EZLn;||(~FWFI>)A$X;]W>J5IQ1@Y%:d
]JoNL,<I2/6fevs'P?!7*BwowLKz(k-CaxfOW[lKPc^BA]g=;41NI*v::-=9D|OpFn#h4Hnsa^W=0;vuJbyA7OET&FcnLah|8^3[
v#JQIt=h[X^C27?-lCn:$D.Z9:!^F<aPt-3)vSOOKym;cR]UwU+al:!*u8xvKSg@I>f=#6C)W=(?F9A;>>RV[,XMX^8`9h,BGhAh
]xV<^,fI^4TKm6%Q,Z[#ClNSHvU`3|dV=f~bm'_egf8>HW*CYEZ84zeDg@:0(O7'[.HG&HmlS_u*M02butK3^e1>EyC@3VLs<7dU
kDj|@/Zx9n-|cnq5O?&f1g7:/q7bCZ?2WBNBqcS6m2P>hS>kekluP3TvXs/<C?CP+pI:,puUrEi'RyJ<iw_avVoufGzO/Gb<Xfh1
&a1oV#H|6XH&nL!>4g`sTm@<J<OIl=!y7*5sSxQf-hXG+bPyJFiQ6xoGZR*D'qd+1-wD_j*%0>fa1ZEu&u+l.n3Ky829`%qgFP&Y
`_o!Q-KZ)Ty]q?^FB|PNg9d9-_aKU0^r.c:)hy:ON_O?:paq6w5ungxL%?.4RrsL0&:83a!(dgtl0u0@:A,m0U>j,&%rMI|idLqF
DOQyYG2S5uiNl:zjXa#Ld0N.qV>!X%^U3uX^*evu|vN;>CM)7]ThUls1YF)(0F='6Yq!.S>DWfoPGVgbVKufT(bjpR4~7I9=Wutk
Zhsr'<W3%j+,KX.I&mJ@qBsW)G2=!35.`S`&_^BNQwc?iWXjXSkJLKl-l:vv@=6zU[[6%Jy`U%xFqKlfAF6P$J$2L<T6ou`M~h6V
|N)+s%#*0rpyUW>63AXvanZ#YNrIIKh`1wYUH1olDh'8A_3up325@gVyL(M~k$|f6<b7o0lJiZpu,]poW>e/#1sw>Or~vXK]6!D`
rzF+GzqC(*rzyHX_8:vAE~$v'F?(./T_.s-SsCcK#>PQKi0#[aYH/,nQyavm3=4H@@aCR~Ot);ZL|Zg?C|`)P'3OJq^1jB5*<S.i
^nADX)=OT*]P8BaeL0CeJ>@V5pw.6$5sqw$&Tm3C(%9w6?E^&9DMUtVcAY9$bS)-osFaY^%XDCOm#FQ7=)pbqjYMLw+/jH)&e=$e
#VanlVGd:mRA^TuAg?pvqW/n&g_<cSY9EM]*e-pW'U0hQ?Q;~[y00?x*8u~mUz8?0SqHgE!@O(Eo_^U|73mM8,en]4>A0f#&4yCg
[pEm>h3sP=c2|dSb(1ZoaO&w=^mN'j=CY8ITCHVZ)e*EPxcGuYZNAZOj!G?pV`AukBbqNMgb?#Ywaah:lANO5?vmC#^3?:H2)Yt~
.@b(LGV1>l5>@ho]^0sDJAoM[<w^sq%teF_^`4:B0b1ViVP>2wuL*dX.ox*#4tQ41IBpyddjWaR3slII`HHtrcA5JQs'UCrtXp'<
[nl/D5c3xJoQb!9H.exN^z'aK74-5R*>G?bZ['6AC-V/Iv+ng=77NRt|<xCl6ZrNlfYyo#'_M2:Z7u6lJK|9fb!PUKeS7P)I3+'r
q2HZ*8<!;n;4qLC^pUQ7-bnNKmr/-$Jda/Z#>,B.S!Th%:O/k?7+xnj7Z1~toJN)LX3)guZzH-wjY!QwJC$;m)b7Z,mY&;D8+$C1
LHKe?1(C3Xi=eC%sdiEX~i|2%Bw6xyw#MW1TVg&l*t&<s`jYy/t+(H#1Ig-o=W-.*2m6)w8|!@Xr4w^!5q6kNLjEPsGXrp*GXHOC
S#FZ,[+l[T5N2C|]sHLI+Z3!a@ccbnS->U9O9[/;BG12ty%*,:haOi]GLOT<+cmvcLYMIUF+72/9KE=_K1MprJzV3<2lZqVweYI>
tC^`1ZxCMKEXF[U~T86]XsZs))Di)LI00=zE%m)#+P-k&W'wtK1yho:bmRm5e]<.l(o,XcnqH(Dgiw^^NHK-FD*!x:|FIMsih#7a
Wn*MkP1]o#R,5nlgV(T+s3#LMXD98LGsPR!I?8Vk=o?>JX9)BujdblY6YP086wdsV@M!W7m=_n<jwD+1Kztsq`6q$r,;@'nl,jhg
(dd<3zJ*#A=H_KdbE?[5>k:!l?HjLG`I2*68bha3h_F]|:lT5GS?_M*D1.4~s?@?M6;]OD:KW^hGI!mVg%xO[L0-du23fPQ#F_DE
gwzvn%peufGaK+wGM2o]?9-IYp9(`v?oCrg6+MKP*~?|NPy1T<_Q^Jh&%];%>tVcPybfmp-&0H_=9+Pi(?[Dp'$i&UV,)RQVaIjJ
z>i%2,H=)$BRfI'e3-:7&cee^H<KY_TXGn*O/r5)n76pkQWm:IozkEW)HuYXgMD[aWgdMmER()2L9$y8?]aN1Pocu5P0aTyv2URx
yjK9I%hKjivj[Z&85TORYn91Jw=+/5a-4Nj|Qto~$XDXJ17U%y75r|?hGfiAssf1Awt%9kgYu2TZ!YC79B:+3zifT^j~:q<;w%la
37fA6U[Z4xJIIaui,GBmxRW]|E8x7;Z%Otv63Tm|7[E/e^0+,:8wmDy3EKLH(d^4)Q:^;/'6M%g-&^mUEWc5~_:igRm(D6rcwwqd
h2FX;TEZ_q&1OK/h0S<Csew%2r2o<i[dB_X@=ggi^/M:hCUkk[$bUO/@jw/KL=C#U#x_5IuT2RbtY-^-4aRy-_1iQwtS09Y+R,co
dO~+&ZWO#Ir6'VS0I6I|cR;5E4=3KZsBTe0>Jd>W@?beBcyS%AXCwOJf'>$`Q[NHY:@x8_2=P1f^:f3z@xW2`Q+68(g'|ba#nauX
Zh2X158Qu];may9WR^box3p4=pz&&[S~xM`f_Ex&E,WG7$`nbx:MT!VOUxOKKy%Rem!FwTgmH[;[+y0dzu(ssRG/@(Hd,gzIH.`a
#JyrA.uR?dKh|Hx6wKlNO3iSYBlAU]->]TLuw@l]7P7,U_Y[1qy&H8.RqA,~&a:mE^<<vJKJKqWT#2E'_C1o8l/Wlf+*c%~,y<%%
]Vt7j9/JXYs;5@x&gvR=`jl$E&lfY&;<Nfj=5p?VrQDVl7CiQu6'IB2FSk^INDbF+f@udp*cZ6DeIUkf6(NBf&|Grt'rW|q1;ttQ
+56u,sW)II4c8X@VY.ZfUQU;N5:?=rr0rv9BLP~G,Z^3egrkYJ!fK$4vxKtxu5u_Z6[-i36'jEkVXGEfhjI0*T:<bqvS%C)>32(s
du~zLP;Rj0tDx5Z_&z[&uj=3!76@kHRO~-mBE.R'evNs4_@&[=JU-.TL+)%9sT6x.;PLjXA!TEB=F[&|xB!V8L-wqTR~#Tf#*>DU
$k|6|=f|GQEr-DvVE9_u06'*A,+pUD8@~?3OVMR@OQOZ;#/J6[D74+:@nI,VCP%i<:J#t~KS$Ft3GhoTYp]4K<ln9sTC<'0WTX@)
%;W@#^hLS(&D#r:fGjjn7jsK/>#s9.~N!iyhx0ftp^MV%M4Bhe:)oID.DU3W$x6k/L=<$|NCT%<.K_N.@W:mBD;ptW=kU]`gm[C.
Q=1foygUd&tHg!BrCm@UpNJM/@J#CNR^!iKZp,X1'm(3&Mx2h>z,!hD4#*LP='l?Qc#>otTD0H,I[jH~GsShRb1>jre^>'W,0M_)
0U(mM(;h^v(De)u%g^KoeA6-|[=G<=rcNT/_B/K]+=[[62vST*G#]4]+:_`Q)RAr*vzdjb$3.6v6;~`BQ^M#2E[tL0t4IEDW6nlj
VnbF)y#U~uJ&$w3/%N#k1SW>g>n8'R^w~Fu2adj80I1~Z-XED6kMMSh:+h4Dt&'V+nfUa=+[0~lmvU@OWJDpmqY-]KbVh(+7h1;@
W/wgN%x+@bZ0tm6=wm<nH|'NA2EqR(zziG.S$H':+IP/rpnW0%dIorU^SwF981d$RSm8IZlz3u]yYY<F~[@h*Kiwkg(T~`i!z1j?
Fw=JpbVUFEBYWJCIw@s#7`p4LPkHombyxWM#6S!|8/P+NV|u>#yx:N~D4kHCG+|1u@Qy])X1-kV8f=y:()MY$(<I(j-$2|6'<okz
nL:qB3=<K3:s8-72]/8$ohf^LfI,dTxNwVY[U-D5i%/rd|G+#BC_YW?~?2Jzq6$:LC&(9*;OKHg>:nL$0aa7YDxbfPnuh?ismo=R
$^B`4>!AdxOX'<U7jVuA(P)tm=P,=>f$w#eiFMc4~IkMUumPd=)oJ~q'FqkMEMIwx]E1wLL`zld-sD.rggC7Bv0l>,5RDAOmx?X6
Q[nkq8QAx>|n8jmU?fwy9g7-k]#HCTZG#M6&>VL>h;>L';4:c@iA<oD<R!i>Qn7O'f/hi@hd'o0v5?CK_%J9;D#e@)!7;9o%'Ln]
**ji]rWTty1^tCDrjv|&;'=(lG2xEwAAENuU8RT?QVLI|?^t_5:ukbf.MV(24Uxp2a~6[7vKi)(V`z`uX-H?pPls6Oll,9Aw-WxX
d+lklpF~)<*o_obGAe7Fyoy_zn3aMGL)sri@G!CqkyZ.4V7xWM'eJh4RlsVNQN2KQ0j:_J_&<3;!zzL~+szW!]]b$^i5Sa;i<1IZ
njnhELys:xF1f*`4C/I<Tw,nkD8T`[H=_7=@-DUEzA`?+yvo3*o_-cef.QrQ'[YLxBq_Ax=c#_G)!,C|C7c]r+L|#adb!cZ;1<dw
%:?#Jq#3|'1xbh4<W^g?Ey@n_<hhHgrDN#P2pB@yQv6ER<Bx;CRd_rHJ?+&,,*+X^XCd,#,Q0e*reeDzbsE1RZ6_k0v<?OLpf7MQ
Qv@W1Vhr<p+Q'^om@*-Op~0^ZKy!+l7R@N)hcto#1Koyg[<k-y!RR*%1fHxVoHT@<_z|wjP<*ZJ<Q`J=Bxcgm3L['?CxMVTZ0B3f
/c?)ZW|2GW4vb|2xy1A$6chpp5a|=o#%2VSyITE4x:g%d4<~e8zR!^J!WDlexx>Tl@?A'e>~]>@+@r1@bK)~Ow'4@SMhNZ4'7m,1
ID[)%Ex2)G4A]jy[Z8H)'`?rMYU<U=D-?5*<$JHe'u'ExipgZO4D2(@NJy&Rs(Nuv6p=|u'7BK/,A/U'u_n5W`RH1<So(>6N@*F%
:eT*]k')nIC4-u'-]#t#TY4Dr%ErXM'kGBBdw/gR'!W12#9G=5cT4A6OVBq~&4g4W?hG3:K8M%K9p9=RdH9f(>1F3TO*jZx`:<4r
L+:q/=t4/0Kvtq;#_6g1d]ih*3aF?cVDM!,T)bdITj!^8KyB&4oncZ)Q<qHkK3]!#VfXgcAt:UU[JoG:&*8ZOV-+d=e`-sXv/Alc
j[Fm,c|0t;SveFN?6$<sO$!i]B.Y@a`+?&#.<cF9vw2J|t5;Ngpow''OT1+QV&An$D_v_A;bi5Bk`er(~gH58Z;'91xItOZZW2G8
a.Y|7T&@3JU2df&PGM@ep&:04dYxq;VlBpcW;~-F,1lCH=9MCH>3>d~h0oTP|9i^BCN,Ws)!~7*R'X#?z~6%=]<3|^=b50rag_]=
Wl+'aa+2b2nLadMJ$z<6h`p,9*x'A0Mh-)P:H0<SbQtkq,U!w,5pf_6b+bFM#V3F|QET@cA-*HmX_i|LDN*K<~w)HrvU$JfAuqd<
&]C@YUFlg`Kf(q42xwYovLkT7_k?<S?3?,o)p6RlRHO,'S'l]u!'2#;/P6fNq:pBS76XVfn[Ge$:`nn@e9<!QoI2]uyHR>3d+VjX
?3FdaiW60FU2XWWNx`uM39c`^s*VWeD/3a6lXLRP1GXXy'`]0SR,1oN3vI]ty-vZE-6B_u1rnP|Yj.*QFaZ7ext)d|tIngE&C,^P
5&YDT$-io#6y=.Lv8P,irQ_Qe=B1Uim24H~*2~TvfDx<H4q!7qQkQJHMhE&p)vybZbgu`HZ_CTN)X^?MeC%n)!@*q-:7&>]t5*>b
Umt@KTqA1k[p7bsTHhz%q&1BRB7s.swoT>He~nOiy?7f#'Xc2Zv`VFVy]c_i6DNX2,c'U8%B7``$Y&ny?8Ny+WX?q0WaVeF3VZH$
$p0Z07<Jgw]vYNGdsu,q0?ys,y-_ov6H`p<9DEd9c~DkQ^4n+%ux/v5z.)]3S*:E|%6]3ul_JYJEgzI`s9I1`yK9AHtQmmq4ns!B
H8SfY`ugC@m%?K)Y>hET|n4:x;fP~I2R<=qgU1%N-e6^kWxo)^2D*%ZKq)!Ok6MS$+i1bW=4T?NzRM,X5<-G@:Gh^<o>4<Kjf.<m
+B7kO.X^h~jcU!CU5&ul~7+[K1'a9)G;is'[O(f_'IcmJ.cIo[3aWL~&5=,d7yqnO;jnbiwwVDS9l-h1F6gs83m#OOr;1Mr1i&Y>
DvN97H9Mi?tO4vYwU))]3#jPN&nJ]s):4SjyN/XNpFliwe%<!K[V%&F~M.oj(&k2H/-HrW7lMkG~c<(lOC/+aBR9brD/V57)uz.z
BNs?0[DgfV:'kSa~(~$+0a~UZ$UaXW~>Ji=@.j]GV<Fk.'7l5OvbDp?/VG,WdKJh`JKbslVc,/By[!M>Gmovw7'#W'<|i|+w9d)=
rFwZ.$l.)zJ]~^5??n<!_y't%mcQf'4ui88*:hPHaPN@TjR?[jj<:2snDbaT?k7<x))f8O*4[(66-cIJ04vWTlDQyqGeC_Y=K:dv
9jsp`4aB@[9eQ|>O0dH~bW134=$E+reC_45bwDq'J=76YXlG;oWAu0KG(Z!$..=b?Wk%U>cIeW+5v7gfDoHzQ9aLm%@r`F.jAwKq
968sTV^i#=EyB5qd4VYVf,:Ob[qb#ED_M#SUXOHZ~rl2MCp($$8DSI#l%[k/<M.k3~Rw%<]M-.G2xJU@kMBA-Jk)zBCumN(>0%Np
RhRLG`L+0IH+G(Y.x+`k#kk[*`(5`*Kjz^)^,voKmRoOMH9&As&<xx;;Yyj['8@N1|+t#`RCMz#bpw*r-j7a[.dQhy@~o(xJ1e7@
W_!aXY(0%L*yXgh|L$xUWwJ(ETlPoOgmP49)gOSd^_f4k+a[N:%[[/y[7SxbfqLhiVt9XbsWXC>e~)>UF_wvCpFcOK'7u$As[!EO
S#2:w:SU`E1|>^-DnXX%,+j^lwh^VkjSnTq2>uCy4h/Wt`NkJ8/)6-%vS+V;zmU'].,d*r,n-bjRWyA>a6H1;0ni,kgV%-uO!<RO
D^C_5$<BG5CrNs-F?$F?]|Reod/KeYhwp+yzHt(PHWUjh!|`m]k^TGJ|C+YHK$=>^.^AQw]bC.3^s|9Vu?)NDhDSeJi,=@njZI*p
TM^i-z.B4_I.w`tne@Fc^;/b[$7IDtH6Y@0gEb=[Q<S>s'e>LMvLi;iibueQP8(7r^|_dzI[Gs??q&zD_JQEPxPi<_85DilXM5tZ
U%_aSUA`8S4H.d``<,&P#k/QH>jA4~g8t!g0LfQe@TAiQE+/s.Q8LjUQpT[%.l-~)-vWnlu]dTS.aNj!TpxL*Ta;@O%(#:2vIrG(
NJqkDO^>g_/`kRN;qMf-?*OP'fa(AM.U>6yMZb;8gIp;2Nwa<hsBDt)f%hTdJV%aMYN.9/NJzwz~:SKUn0p(]cCh^tbrMfiGcVes
LI9b@x([@!?]`+Ujr+:!i#%hIpU8V*M%mnO!#0alJV^@h|(UKx46u6]d?7i3l/)EMc4pyz]n2G;%F#$!Za5*$g@xW*C1_B-yi.(E
'MLN]u_cG9yf0hje-`=#b'I<>zs~$h.*-SnmQ`SRb$^a!c0jwj9E@W@BkP[#WX[5T4@$XEyl^3PT;LHC=G2-ZGL`T5kpcXhA<WBu
L84+8nSta*@Y^'_&v9AJ0e|6z?imnyA&iYJM@1vVBB|uHF&>[fO<?g'|GMc/K(.%OFxQWC+Cr5YzNp$P_(qTM1F:.z+?vI-,ToF0
&`V:NB`Ig)s$N&u>N|gLgnHeV7<1OA5qmC7foCns]N34w;*HD-NhCb2_.HMc-DHC<$Kay%T-q1<-aDQdqKc>jC;;''OV8OUjDZ3F
uH'#Nb8oIe8paio+]Jol8Y?k*G*=k=!eAq%_w93(J0Oc!7>S85I+|hHW;cx8B$a*:<pCp9d&;%>n)#h|X:IQZMBVg!m=fpw@n;'|
CN[~8E&Hhu8u)LtbBa+A`N_Z(5$x!w>e3y<+pvd]4o?q3SX(Pwtw&AigJmrGlRkN'wyWW5C96`Y!?v[-fEB*?gbt@(8HL@WyAWvL
`;mm~t|92>lR7=v%C]eqx~]-Za;Bl9YFkP:z''^+v+wpZ8V663z^;9XGFQNLTt<l5v3kWv;CT>3ecL_7cZ06aD(kzCc8^EQe(.>j
*FhG#qiKi_X1vz=uNnet#MS>90u#_dFE^b$d$wx,1Z;9CC6'u_6h[%5kB2Uj7E>%yYcdcZy>eL/A$y5VzC[m2.Er3hPrp9aAR)ay
:LqhM;qO0_3oTarQ-3#dUa2[K>oJ=oT_RJJ38I9jk$LQ!-*bmslAKyryA0r^9Xhl?t=f|ZY;U34.1'c8jEoj<8icAFAI3`|9nQ`m
KkmvW(K7eT>uR*E@[gw&xvd/v_f?fBu?!uZ8]e80X4=q/g@+[c$q^;CQP=T(@WXo+>8Z8YJXx0B4:EL*gg:0z3@@%YG'GZ0Yn>y_
Z(zWfE>~[~IR[F!&^,,O#jmVOmCe`?#pnqB0b,]5i%1sFwQ%m-QSMBv]zyGfmmWfAl#%i@)d6F08,!NYBtbdB%T<l?mk(EOwIChN
gB1GX=B*)GwVu2_1dck+<C-J@oBDn5j/cy7m]H69k^QNE&!Y;dO4F6LQH]r6+rb*X%GU;rg6<c9!~_OO2js,='ul.OHrBX'/rRW@
EP~T'q<!_YE-s2;$_rwzUwl@L;aoMu=#O!~R>l^XoGr/4dcQ.3Zhn|VWK+<1UD=;bc!%-]A@i$E-N',RW>a,z)]L6~guWO*Sqmmn
8`Ae.##4ZINGs:X|O9%@R-<.5GX^r%P/^df:-Q<L&=GK4)vdO)[x:*7|cHMi7)<be>?;&q5^[AJ_@^D>!t3~roSOU~iJN(C)G8=/
-xckw]aC~N>Dsp:oN/iwz1=e1xWZrGDL:v`hZFi`hD%F>ISmBpU@Kk/RD1eWJ_cF9o)q-'<a_8+R_=N@<rVLuufsjw?p=FUDLRUw
71+$Us>))#gw`ePA)h@~sVeXf]X9.+>~eT=;fA^bu2;G]n^'S3a-my?(jj|drc~f,LN#PyBb.$OlUWb1vY,zUR3KS;Af73wozg@!
okQpm'b'0H2n:*Z8z1h-V'Jc2j|DxRpPCS~rxOf$p`gF57<ST|I:--|>U>sfM4m.`tdcg.dw,8t203zk4R9(o@zWXKnQFyE$CB2t
N_'B.89W#'w)#gNhup:wY~rwE:K;nTZUIu7Zi'BwrcenOxOwa%Bs2gpD0X!3O?R).mxrU6PSsCLi_qjMwc|&h8:%gN0F<xf1M>dI
+|)RhsXamP]eZ5(lLi;6`[^L+cGaapl4[G7[)#dKUUBr5$Q-1XN1oI3^>4z.Pi`!3PFDZd/iT]FArLCVbm,K`UGq^>>ozH*eNG<<
=nw5~nV<KcV9liYF=Zu1N6s[V.fAn|MNjhp%1-P~yhKF<D4-!d/Ul~3oE$|i~1i58B4:QiN9*;K;9AIBmKNfus`;1Wo%:E65/N.R
X4;|eChn&!j5PlGOYKv)@LJ=]pueO]m4it1R7H%_n`Lz]?W*jQU^qdg=MXX48B5=oZ(~`!Ijs,%s%[n|HKdbj0[b`NAa<T|s<zT$
Ar^58_L&cbM^AR?kC>~h?NlO8+.Rw(w2un=vCe|HIWujBl,R+~o6TGSu[Wfs'X@L!3tN#,L>Q@o==lk$0U+?U'P.u$.YJ[mrxh=S
eF'(e@1q9aqj'W/NBfpJ~0ydCr[]tZS,P0%1R,nQ&Ucau#x#cx2][*#c&la>cJ7r%X#jSe/Qa>1u5Xmu$`AgXaN&2k&?nvB7c#H8
37O*;@c5J/w(RXoBnO@=]?(D+zX)d!Up|JVc%#8^WRqlBFnSR-`:q=/kBkx]@eefZt9P9]Ilwgk0H%N`4b.p<Ii]J7,T3|U_Pb^j
?(&XqrjHQf=<kuUs=yFL>ShUJ&0O[/ZG~^X'.#9SQn)neR7k;G!W0<QL>nJPRMEMiKd%<f!rmakiy.<*]l6ql#[]_N`F0Og?#9iY
`6Y?Q*$du&RK<v`]b3oyRa;XU$%.ub@.sm[l,aT~ppc88h+FuX`K$1+fF!fmOpQ7*6rd|UAK*#iU@tld9gUAN1):pf+t`*tyA@Kw
Rv(=U=X8KGNMSF,4~rc47@,QU+EparNpSI.1):JL>+a(oV8P#by&Nl1Sp#LOF|/^$W:@./8%=o!$*-JCmQsr3j9-x$ttv%T-qOob
BV)1.))j4>_r2edtq5=IvT9'GHCTMnF6W5b.J-XH&Lc6np*o7fm2y;CGT%BEg>2LZnD2SiT;AI7r=P+NX+iFOknA5~6Ua8;Xm*hR
~>?kpKtxM$%'QRc_<ez`5uj](hXWNkS'p>#WOqfYZ6_]g63`9#zjZx`H|!n(;_hdxIq?xGv2.9!.OAY]NPFiv$qvn8Z=jPegou7)
)XGT$0:/APfku7;8S]~dVns)u6+13T^^BWAnG4kUSJ(ELi_%^Y|5g^1q8C<hZv9@m1@^o6NA7PAU*4@MYahypq@D0in/>qw-@pj~
r1V2T$a=/?70ZqMOC7uDxKHzck_s?[IT<~mR<P'XCS7+3&>*>m-^FWYDTck6y||5*xr#'l5Irm'6TM/U9#1@Qp;F(hPgla?MPqw6
kzQfDSc3^~PjipBL^KjSAG`97mDIlYjR1]a@y,M:=z7E6=R*&m|U'pfst)sW=AsoJI`j%_O%]OrZDS0y24?Zboc|X,qKx_6dm.:C
O'kozTx?+HdH;VmN4B&o!f.^DPp!wXmVMDRH)g;W<NO-fGX4EQ:zr:$in`R(Jy`#j?i#E^y]vV`Jl_7D.wm-Lz-ozwV*sF$0>Q_r
BtI'oE]A&jF03z:U0nM$O76n|p&g35?5s1YUOa=`~tWH59gi]7,NltkaMP/q!D_~l($A;Og!E7o055[^[qW|1MlKvs7U;|b?:3w]
IYdtQo:z`aA;/&$,m4>?5H)x3cCe3[3apIlf&n@vgv5U2+|N'E*I[&2x|tZQnRYE.wPXOSmJQd@bxQ)+~y>Sh`I=A/kq>*d54'=@
E0?F8KA+[y)&7*&_?nG&KJ3KZ4<BB!_(#&7?:,:uAK`+=M$OVD$h:Tj(82RGrPyry2-3P#g;bOpyrV>3b^|&:#.DQ2Q)k5#v'puf
z=F$-R$z/JbZj>9D.t3+-_:sr|Vc.c:pthcaw)%IPAh<k?wfi@=ctN;@$&>>=r0/xU9.o@4p<^A~uV:J796.l$RfAZT;_.%6DA)w
o4G4l1aZBXVwb7<vy<j/|Mp[aOD,HQiw^vg&q(oBtI5eQgEMD|/`^wDKD]v(C=`ynJO<%6(Ehx?)T<.4(+dA62)Va]~7RM(_UEB5
%5:Va9>P4C4QYK/%&7hePpA)7nVffo|7G`jQ17B&Gv*5l^ul;C)vkrV:+1)~?x-aGy5`/6p*x~8Ln7d*aWCnzd~65jIs([gJ-:lU
_/+t;2c(>)H8#MYS$B&UdGyq*0cXg(H$-d3$bZ|<6GqO:utDj47.zu?F:B7%%a7((<(AbNsNhOKM$9Iemm:P.lEIi+wwKkPHuHUU
|?oC;#DN@K9Yu@R_j(cE5;O8,ILin&>2fl0#%K%sdTdXjql;b/&kBoynWeYIpyJmw~();+a,4D]E@y_V@)K2oF.83|gAT!c.U+gR
e<;j]U;Rd72Wh6xG$]qTZI#eD8d(-Hd|G@vA/pH$7RKS@]6YQq1B%~?mbA>>)6eq9rXE=<hk3WCh6!eNWLD%@Px3je?&rh_Xq;^q
>G!^8wbtOx:>2b))o'$DZT6/ZFl8yuJkb'/8C+B(wu$;wb.A%uzX3ufG32-jC%T'P2k.p$ru!0p(F+;@Ck(IuO1gumn)3+`yg'%R
UpfHCD,3N-l^`3mVp]'g#=_pdq~8@[Q9~&DP-#/_1WI@;XP.gJGPH23r,I'TiG<tgSQyHDTD7od/&x3lH?lpYT@nAySG&QCJ=q8,
IL7#9^F`v)NV]c,@uI4C3F^>1&CLa?C0wPe)imD1u9,6(f8Z;ft4D+[O`Gl8gX`[uwyG&<AjHw,j`>82:4kKy^QNe3PU4'%@wS&c
=Zkbm.r`(1T+]b/bk'Y_GJ.C-MBag)zB6*7h'aQ'PREkZz-tpo3ob8HrybYlRG*.W+G&,A*0ti.Z.pp^y-Eu8eH=[$&uiGhRSbIj
|pbQCY1hZN5ac8>NGb%p/C^^i#:ao6n-nr,?aCE?>WKbvFL&#n*CYIW0c]Sa(Hwx^=k3c2t8O]|Q<30O)R)P$Wxnq:U=065/GHC6
#+ETCL.z6s4cV%2Iq_,*tXY7t!USxC-rLWYK+k~U~>KVFy=j0_m2'U0lu0$>jQjN0U'rZxq2q;y7Xfnd+b8J@b?yX5)v9G$f.wlh
%7L9g!I5VQYt~Av@%CFb_c?!SM.2s=;LFy<Z)PK,G_Kl:&CRL9QZEO7)8T239%GBU32%$w[B#KK9)N'%],jS6#]cJGS73R.9s6^f
qNbw`<q%p%rv;j;-aA^rp|@mLCpMU|+vg/|1=oaJ@I3QMP@4LSYf(NmZY6O]o`Yke`ufK4`>DL#-H9l9?d%!D0wN5Rf`kZBn0jNp
T-XvJT+b0=Jul,/@8x:M?*:NPHjYdE|2aA58z[[myUDeO$AqQ1U-4l:hNw.=5WoAZ|QxdJZA4Ksl>gbo9%7?_Bn9cfn(i^0++7`Q
Q(c998f6nB|hj9#f2>#~p>2!P+VSliUXMN;%x.HEgw'm#@e,raqX5[1ty)MXmZ(CZl&,D>Ga?L_N5c1E$X?]~.#8-R|lsrWEdPlg
c6GwWNZk|$Ozv=UEqh^79`m^,yBRyef)#<>$8L<JE13(9[e=uzWu^]+yoA~,?M6VZabEDU<Ukaaam[:y;OA!gGmn8)5wOY^/:*)p
5mNneFSlV&;W>Vy$HL4yi[;FuxWmXs(JXei5u9By2@/6?'eR7y/.De`Y:j@w@vY<xzgud:?kTOrv+;&,W'bk*c;tDG-D*C81lK6~
3fgb]X9U2h-y4BR[_1NC5?iE7>C+sPcbTTNvty0o27,f`$kIqlB^y]>+$xuoDV+|il@0|tSD`^|buRcVa8rZToy6n^zVgj)*G$m)
wNUXTR%gwrGkztAcgY(-<1?]*67S8z,i>6#9]0b5f=*MINZ#mu17M:pUb,%y/f,!1q_0;ILSX09EK!p>eUiqyNg&J9gYnoW:b3XE
jN|ZWCK*e.G)P4y]0;dr/.KH=I:2ItKA4E6g@KaExTM#A1V:kwyTsT3V-0Y$?h@f_wFe3muyE$06.O.5yt|1ia:rhdv6[VfU!ys:
E3B,z?2vCM40g5]hMR]`:Y#]s9>mgG!fPR$/'>Vv3=h|g'g=c:ZY>Xi1/CBrv6v9;]@&#j-[06uJBx$o6>>#YDF8GqxAm.LBNEke
~Nc`bSDf#'&&%4C3up]gFf[C2puT#*O'g7[z#;:(+HVX>6!1hU-3<OO-%2~X@aJMrwIK>:Ce8VHM/2LFvYV7q$a*b``p6ioDfo];
7sVj^Sv%[I~hQAM*2q:I98=yZuAMQcX^%!($26$v`nW[K]P_9[n!0(2~6LL?-_P~rNYwT_Ab@?9I8(7.]3/FNda?awD+?l`&XT)~
b(Dm<'$lmL%C+^k4Zpo0SbriJD/k8(aGV(.!G;meQ]5/RtS+^LD|]5sS(E1RR~E~]9rTAtnPo>[/TzW|el5hd?t'Y,zL~:<#@'B,
;&PE%bQxZTfYA*H]8E>%|xM28I)AHbh=%3HoCSU*.r!Qly6c^_(yb.+Xv~UZmvNZNuav)v0n4ZL9qLe3&eZVURiTQ!(JX0zZx`w5
]Jw7&9Qyi6xI8#6fJ(*<)~;C9Os1$9Nr=$KVfl=<-C>i=d0M/UL81%gJoo):-Z9&VIgs7vTdx3/XvU?K1FN6`U%9_xxn0QSa(Lim
JIJ!zZcw%2i)n,?s<Q?r!Gr|hmFo!v]rFW:-anNd?Hnwvqp.=k&4B+07:C^lnMOC5;RtUE:K7Vp$srZYuWFo/w.C8[hif~<(^p+D
L8]LRhj7jERh:%DbvZ,9(-`[zg/p7$S*iK8Wc+3DOzb'f)?W[%x#gc./[a=Lp-G]-8ZrvTRz0SyJrbf:!;MS0OJnQDO.R4uMFG_%
gkRR+tS*0S=e0M4A[AW)GL5K*7_9JgD5dF.oflx.Ka`l%uq`V~lRhpqT8(CZ$_)iSONhU*we7Zd!>^558%2A-yv72H=_i$03HyMI
8`D'%1Ot~fXiGSsaYUK-&7qjPaxa7SZxHJOV`28;5X/^;#4@vulG+=%Eu(>MO0dz5iZ997_?ROd89_A'vQuu-SYrOL;~6nH*UpR.
)#k/h9JH1Bk9uB/tCkL=U.Bo7Gat|[J->!EyNJvUNG!X39&92ex'[Sx,Lhqi;rav_DV]v$`O,KA(mC%7X~`9s#wC#gNy(MtwW.^%
Kr8G`;>x7#r_N-&zZ0l$nOZ#uO#:k9DJV_NIr6r2JK7#=RJiUc34%K8q7Xf]DHqU?9fcN=_M3@D2Ht2J_`!L]pSz#kff6d9jqkD8
%gXeq6mvZ[S<)$^MZ=wT`]?P_6hdraq*jYxL|rf|0B[w(X8s@Oou,X>;Xg(i:,iw/AJqVfPak,N)IDr'Z=)hiT8#RkKO['BN-h>,
TG>_YC1m[828Vv`4O'To%d2<3>`(RR9t2wm=2~u+u_SG7tS[j8NvS~!mG#%yrQ1haKJbg8<hNK59s<wsxx7E4*!Z+v-rRi(tvcl'
NHP.$pvp&$4sNe`30V;sJx=6,K|u-&et'%`*1o&'viGzd[v(jE>E8/a1v_(MJe]H_KU~VMg0@<FTocmVTwoPT2;E(.Q93e1w6=G[
@'4Z&^08`M0@XfioEkLnZq,SSRAgzYSDXQSAz)|:~3cbocWXQI=xaEoXd?3Md+E<p-cIcZXo8lG!AThw4)D*y<1I^+MuIlW>![>?
;ulxeIiSD@Kj`&1yHWstiXZN0V39jd;uMkU(jIK|&%t8ecW9vo/3@`&@eK;:NpccA9FY8Mf^_f>cvPs`Y/>W:=I)d9*0~qL/pFMR
>^S/d9m'ROKav0WC;7.:p>Jk]MRDT^C!u'WYy$wF0c-kOjIqz)Pvrc_?Ud[]E;A#qHxX6[<p0yMCJii*);W7d)s*1R6N!I!BTY~^
fA=3=dtWgIHt0vn&m2!h%R8h?%Oh3vbL,(BjXKOZJ+@XFb/x.0kn*,n'@d?JI7TR`mF^a~vT:JU>NfZk~zU$i2WS6Y(;aUcw$HA2
nUyj%!Vlf|Y<|4P[HaWsZDM[V=Py8$4Zsr-J[Ux&?>T7=kcH[/<p+IM<.Mc8/@dN:u<EAg56.jyI_SDyIIWs@U._C*i%z/(H@nI)
%mBZ7BMd#~1Z~2]j>5<K+dUe3(Ag5fE]*6;,MXlq52LNxbb]ivL-]/YP=gKGAa!wOfdH5v?epQxlbosN%e4=&.s?-Hi8oY&cxqhT
WD4)X>GHT90YjD1(<38V=C(ACsFP|2+n_BDNsge4@U!FJrHcF!*2_;fxKXOX0I-czr7i8o|Wz?Sm7)^b~2jRHuP:%V]lGfRJ%XLM
R)|GX.o6B5Sil~71;xe4G^BtEG^f:A`T#>Cx'<E?K]5dhUb&&tVbTQOf!zP]KdD2$?N0,Y_f_8bt9=L7#.)ES[eE<~BE^Nd/W)s'
G(,WtJq$gtxR2,pKr]KoQ-*9ME;I|btT?v43&vTEGi+W,1kDF)u4`I`eWP~qcfqI]1z^+B=o!H-z90%31$w9IA7^~S`R-!_iN)I;
'@FIW_+;xJQ5:Ic#hL4qd[~yU8yakrVpugU)vOjk0=]R@Zp:`pJ:UH&IF'2t,S~iu>GFf3CH&NAjsX;F^n^e721q_XotZ(1xQQFF
i-G@u*3'#+welJb^G1LX^8kx3(e5.#4*X;Lt3wFZVm%QmsN/YDDHa*:sS6Z+&b*qc(@>]L3xm>9PBuFvsU-r&;jmh9D^w(1f@NgZ
YU=EvqAZSIjLyHo?HmBDkk,MfGq~8`d&I~g~%$`sutU=n'hBjz;vVq|;eWn~F./p^H6iX2]@?9Gni'BTiTk6VJk(s^z*OglQ&,EC
oI*j*`>gr]|IKmS)*QgD7:/vw)vzX_1q,k:wu)Lho=+f*E;Wi$4ih!_V>*=Zd`(rIl3I`G[_<X;fb$7HVm>%*VN=_zm;)#5YSd-v
w3%Ao>[Mr*eLvle5mA1INSn<h/roB!k-IN/N#Z'mXMcw+M@q*J_*P7~B@F3bs+@X*~5uVSq(xV5X6obSLv)-1UHpE1!1J+Jp;H;T
JJN.;W>lCCNKPga6l`cvU820Vb;?xpLtPYR>+?TV/Y-|ZXv1zL$,U@C^A'OX|8o2pJ'V|i4@qEs,@PwON*d6;X?~K'V%$nv#G--=
e''tPFIxj)4`jY#|K4Ze8X^Tg.R_f0.z>RTpm_Ocz=K698487fFKg3sPQv@<~2ZF_Qum_(TjpgQ%=a~iA>hsY<z)]Oxo@2|Y]4!g
L/zdEyYo+r~2lr~F.sPtrRNw*FS1K=d,@;[lFd1Vo$a]*X(arye?y_uxL-Ec8[_XU|uh2)Z;h^[ib'8UWL.$.f^5evV>^ws;%=`^
cI;Q-E.4=>-R*FCQxFbz/tggwwR-G6`ORh]:ZiI:_B3MJCM5CVk!Q4Y/DPQIGXESX06,^/_kyE!FtGwu2>vYv|OE~o~oq1Jvuw*`
$_%x%n`Mbg]@3.9YEfEil=1VR|)qCScCEZ<w-R~$V$=`J,NPMWYLEFdfuatE#X_Uu[l_;3Wh^f'YtaldTld/K6S(obxRaB0P~PW6
|)id+BFQbIO[BBpG[C.S8)8yiPcLLz:-!LV7ad!0B%bA<:F!8AcH6>.r91WEVaU^lDB:ws[x--v[,!.p^Hc'XX240,kWa.>`Q-3F
_DH'H~9.j'E>w;^#CAHM06UnMhhp`h|P%dO6`4]F89xFlQ%zj,g0`E1/2QvydK9IBCwd)Ax+F&]&9JKyJ=wL_!Br>1s:Nb5c?^l&
!(GnH</2(67aB]8edC7F=12hFH2%C)A39AB8"

end BlockScript.Text
